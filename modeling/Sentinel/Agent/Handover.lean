import Sentinel.Agent.Desk

/-!
# One user leaves, another arrives

*The grace window* is counted from the last time the server verified the user, and signing out
forgets that time.
-/

open List Option

namespace Sentinel

open Capture Uplink
open Faults (Upholds)
open History (Each)

/-! ## Whose verification it was -/

structure Credential where
  bearer : Option String := none
  current : Bool := false
  deriving DecidableEq, Repr

structure Standing where
  socket : Credential := {}
  verdict : Credential := {}
  deriving DecidableEq, Repr

namespace Standing

def after (s : Standing) : Deed → Standing
  | .signedIn _ => ⟨{ s.socket with current := false }, { s.verdict with current := false }⟩
  | .dialled bearer => { s with socket := ⟨bearer, true⟩ }
  | .verifiedByIngest => { s with verdict := s.socket }
  | .verifiedByHeartbeat uid => { s with verdict := ⟨some uid, true⟩ }
  | _ => s

def of (history : List Deed) : Standing := history.foldl after {}

theorem of_append (history deeds : List Deed) :
    of (history ++ deeds) = deeds.foldl after (of history) := foldl_append

variable {s : Standing} {bearer : Option String} {u : Uplink}

theorem foldl_eq_self {deeds : List Deed} (h : ∀ m ∈ deeds, ∀ s, after s m = s) :
    deeds.foldl after s = s := by
  induction deeds with
  | nil => rfl
  | cons m deeds ih =>
    rw [foldl_cons, h m mem_cons_self]
    exact ih fun m' hm' => h m' (mem_cons_of_mem _ hm')

theorem foldl_passDeeds (s : Standing) (bearer : Option String) (u : Uplink) (now : Nat)
    (env : PumpEnv) (incoming : List ServerMessage) :
    (passDeeds bearer u now env incoming).foldl after s =
      if u.dials now env then { s with socket := ⟨bearer, true⟩ } else s := by
  unfold passDeeds
  rw [foldl_append, foldl_eq_self]
  · split <;> rfl
  intro m hm s
  rcases mem_append.mp hm with hm | hm
  all_goals
    split at hm
    · rw [mem_singleton.mp hm]
      rfl
    · exact absurd hm not_mem_nil

theorem verdict_passDeeds (s : Standing) (bearer : Option String) (u : Uplink) (now : Nat)
    (env : PumpEnv) (incoming : List ServerMessage) :
    ((passDeeds bearer u now env incoming).foldl after s).verdict = s.verdict := by
  rw [foldl_passDeeds]
  split <;> rfl

def Plugs (c : Credential) (s : Standing) (u : Uplink) : Prop :=
  u.connected = true → s.socket = c

theorem Plugs.pass (h : s.Plugs ⟨bearer, true⟩ u) (now : Nat) (env : PumpEnv)
    (incoming : List ServerMessage) :
    Plugs ⟨bearer, true⟩ ((passDeeds bearer u now env incoming).foldl after s)
      (u.pump now env incoming).up := by
  intro hup
  rw [foldl_passDeeds]
  cases hdials : u.dials now env with
  | true => rfl
  | false =>
    have hon : u.connected = true := by
      by_contra hoff
      rw [(pump_unplugged (Bool.eq_false_iff.mpr hoff) hdials incoming).1] at hup
      cases hup
    exact h hon

theorem Plugs.verified (h : s.Plugs ⟨bearer, true⟩ u) {now : Nat} {env : PumpEnv}
    {incoming : List ServerMessage}
    (hverified : (u.pump now env incoming).outcome.verified = true) :
    ((passDeeds bearer u now env incoming).foldl after s).socket = ⟨bearer, true⟩ := by
  rw [foldl_passDeeds]
  cases hdials : u.dials now env with
  | true => rfl
  | false =>
    have hon : u.connected = true := by
      by_contra hoff
      rw [(pump_unplugged (Bool.eq_false_iff.mpr hoff) hdials incoming).2] at hverified
      cases hverified
    exact h hon

theorem Plugs.flush (h : s.Plugs ⟨bearer, true⟩ u) (sliceMs clock : Nat) (passes : List FlushPass) :
    Plugs ⟨bearer, true⟩ ((flushDeeds bearer sliceMs clock passes u).foldl after s)
        (u.flush sliceMs clock passes) ∧
      ((flushDeeds bearer sliceMs clock passes u).foldl after s).verdict = s.verdict := by
  induction passes generalizing s u clock with
  | nil => exact ⟨h, rfl⟩
  | cons pass rest ih =>
    unfold flushDeeds flush
    by_cases hdrained : u.drained = true
    · rw [if_pos hdrained, if_pos hdrained]
      exact ⟨h, rfl⟩
    rw [if_neg hdrained, if_neg hdrained, foldl_append]
    have hnext := ih (h.pass clock pass.1 pass.2) (saturatingAdd clock sliceMs)
    exact ⟨hnext.1, hnext.2.trans (verdict_passDeeds _ _ _ _ _ _)⟩

end Standing

variable {α : Type} {dsp : Dsp α}

namespace Desk

def OwnGrace (d : Desk dsp) : Prop :=
  ∀ uid, d.agent.auth = some uid →
    d.agent.gate.lastVerifiedMs = none ∨ (Standing.of d.history).verdict = ⟨some uid, true⟩

structure Own (d : Desk dsp) (uid : String) : Prop where
  token : d.token = some uid
  socket : (Standing.of d.history).Plugs ⟨some uid, true⟩ d.agent.book.uplink
  verdict : d.agent.gate.lastVerifiedMs ≠ none →
    (Standing.of d.history).verdict = ⟨some uid, true⟩

def OwnedBySignedIn (d : Desk dsp) : Prop := ∀ uid, d.agent.auth = some uid → d.Own uid

variable {d : Desk dsp} {env : Agent.TickEnv α} {f : FlushEnv} {uid : String}

theorem OwnedBySignedIn.ownGrace (h : d.OwnedBySignedIn) : d.OwnGrace := by
  intro uid hauth
  by_cases hnone : d.agent.gate.lastVerifiedMs = none
  · exact .inl hnone
  · exact .inr ((h uid hauth).verdict hnone)

theorem standing_captured (d : Desk dsp) (a : Agent dsp) :
    Standing.of (d.captured a).history = Standing.of d.history := by
  refine (Standing.of_append _ _).trans (Standing.foldl_eq_self fun m hm s => ?_)
  obtain ⟨e, -, he⟩ := mem_filterMap.mp hm
  cases e <;> simp at he
  subst he
  rfl

theorem OwnedBySignedIn.captured [Inhabited α] (h : d.OwnedBySignedIn) {a : Agent dsp}
    (ha : Captured d.agent env a) : (d.captured a).OwnedBySignedIn := by
  intro uid hauth
  have hown := h uid (ha.auth ▸ hauth)
  refine ⟨hown.token, fun hon => ?_, fun hverified => ?_⟩
  · rw [standing_captured]
    exact hown.socket (ha.connected ▸ hon)
  rw [standing_captured]
  exact hown.verdict (ha.gate ▸ hverified)

theorem OwnedBySignedIn.pumped (h : d.OwnedBySignedIn) (env : Agent.TickEnv α) :
    (d.pumped env).OwnedBySignedIn := by
  intro uid hauth
  have hown := h uid ((d.pumped_keeps env).1 ▸ hauth)
  rcases d.pumped_cases env with ⟨-, hd⟩ | ⟨-, hd⟩
  · rw [hd]
    exact ⟨hown.token, hown.socket, hown.verdict⟩
  have hsocket : Standing.Plugs ⟨d.token, true⟩ (Standing.of d.history) d.agent.book.uplink := by
    rw [hown.token]
    exact hown.socket
  have hplug := hsocket.pass env.now env.pump env.incoming
  have hstanding : Standing.of (d.pumped env).history =
      (if (d.agent.book.uplink.pump env.now env.pump env.incoming).outcome.verified then
        [.verifiedByIngest] else []).foldl Standing.after
      ((passDeeds d.token d.agent.book.uplink env.now env.pump env.incoming).foldl Standing.after
        (Standing.of d.history)) := by
    rw [hd.history, Standing.of_append, Standing.of_append]
  refine ⟨hown.token, fun hon => ?_, fun htime => ?_⟩
  · rw [hd.uplink] at hon
    rw [hstanding, ← hown.token, ← hplug hon]
    split <;> rfl
  rw [hd.lastVerifiedMs] at htime
  rw [hstanding, ← hown.token]
  split
  · rename_i hverified
    exact hsocket.verified hverified
  rename_i hverified
  rw [if_neg hverified] at htime
  rw [foldl_nil, Standing.verdict_passDeeds, hown.token]
  exact hown.verdict htime

theorem OwnedBySignedIn.heartbeat (h : d.OwnedBySignedIn) (env : Agent.TickEnv α) :
    (d.heartbeat env).OwnedBySignedIn := by
  intro uid hauth
  obtain ⟨hbook, hsame⟩ := d.heartbeat_keeps env
  have hown := h uid (hsame ▸ hauth)
  rcases d.heartbeat_cases env with ⟨user, huser, hh, hg, -⟩ | ⟨-, hh, hg, -⟩ | ⟨hh, hg, -⟩
  · have huid : user = uid := by
      rw [hsame, huser] at hauth
      exact some.inj hauth
    refine ⟨hown.token, ?_, fun _ => ?_⟩
    · rw [hh, hbook, Standing.of_append]
      exact hown.socket
    rw [hh, Standing.of_append, huid]
    rfl
  · refine ⟨hown.token, ?_, fun htime => ?_⟩
    · rw [hh, hbook, Standing.of_append]
      exact hown.socket
    rw [hg] at htime
    rw [hh, Standing.of_append]
    exact hown.verdict htime
  refine ⟨hown.token, ?_, fun htime => ?_⟩
  · rw [hh, hbook]
    exact hown.socket
  rw [hg] at htime
  rw [hh]
  exact hown.verdict htime

theorem OwnedBySignedIn.signOut (h : d.OwnedBySignedIn) (f : FlushEnv) :
    Upholds OwnedBySignedIn OwnedBySignedIn (d.signOut f) := by
  refine (d.signOut_spec f).imp ?_ ?_
  · rintro d' ⟨hf, hauth', hgate⟩ uid hauth
    have hown := h uid (hauth' ▸ hauth)
    have hsocket : Standing.Plugs ⟨d.token, true⟩ (Standing.of d.history) d.agent.book.uplink := by
      rw [hown.token]
      exact hown.socket
    have hflush := hsocket.flush f.sliceMs d.agent.clockMs f.passes
    have hstanding : Standing.of d'.history = (flushDeeds d.token f.sliceMs d.agent.clockMs f.passes
        d.agent.book.uplink).foldl Standing.after (Standing.of d.history) := by
      rw [hf.history, append_nil, Standing.of_append]
    refine ⟨hf.token.trans hown.token, ?_, fun htime => ?_⟩
    · rw [hstanding, hf.uplink, ← hown.token]
      exact hflush.1
    rw [hgate] at htime
    rw [hstanding, hflush.2]
    exact hown.verdict htime
  rintro d' ⟨-, hauth', -⟩ uid hauth
  cases hauth'.symm.trans hauth

/-! ## Grace is not inherited -/

def FreshSignIn (d : Desk dsp) : Event α → Prop
  | .signIn _ => d.agent.book.uplink.connected = false ∧ d.agent.gate.lastVerifiedMs = none
  | _ => True

instance (d : Desk dsp) (e : Event α) : Decidable (d.FreshSignIn e) := by
  cases e <;> unfold FreshSignIn <;> infer_instance

variable [Inhabited α]

theorem OwnedBySignedIn.step (h : d.OwnedBySignedIn) {e : Event α} (he : d.FreshSignIn e) :
    (d.step e).OwnedBySignedIn := by
  cases e with
  | iterate env flushes =>
    have hfresh : d.refreshToken.OwnedBySignedIn := by
      intro uid hauth
      have hown := h uid hauth
      refine ⟨?_, hown.socket, hown.verdict⟩
      show d.agent.auth.or d.token = some uid
      rw [show d.agent.auth = some uid from hauth]
      rfl
    exact tick_keeps (fun a ha => hfresh.captured ha) (fun d hd => hd.pumped env)
      (fun d hd => hd.heartbeat env) fun d hd f _ => hd.signOut f
  | signIn uid =>
    obtain ⟨hoff, hnone⟩ := he
    intro user huser
    refine ⟨huser, fun hon => ?_, fun htime => absurd hnone htime⟩
    have hon' : d.agent.book.uplink.connected = true := hon
    cases hoff.symm.trans hon'
  | signOut f =>
    have hout := h.signOut f
    unfold Desk.step
    dsimp only
    split
    all_goals
      rename_i d' hd
      rwa [hd] at hout
  | openCapture env =>
    unfold Desk.step Agent.openCapture
    dsimp only
    split <;>
      exact fun uid hauth => ⟨(h uid hauth).token, (h uid hauth).socket, (h uid hauth).verdict⟩
  | sessionState | recordEvent =>
    exact fun uid hauth => ⟨(h uid hauth).token, (h uid hauth).socket, (h uid hauth).verdict⟩

/-- **Grace is not inherited.** -/
theorem grace_of_fresh_signIns (spool : Spool) (policy : Policy) (deviceId : String)
    (es : List (Event α))
    (h : Runs.Along step FreshSignIn (start spool policy deviceId : Desk dsp) es) :
    (Runs.run step (start spool policy deviceId : Desk dsp) es).OwnGrace := by
  have hstart : (start spool policy deviceId : Desk dsp).OwnedBySignedIn :=
    fun uid hauth => by cases hauth
  exact (h.invariant hstart fun d e hd he => hd.step he).ownGrace

def freshRun : List (Event Int) :=
  [.signIn "alice", .iterate { now := 0, incoming := [.ack "call-1" .far 0, .close 1000] } [],
    .signOut {}, .signIn "bob", .iterate { now := 30000, heartbeat := .accepted } []]

theorem freshRun_grace :
    (Runs.run step morning freshRun).agent.auth = some "bob" ∧
      (Runs.run step morning freshRun).agent.gate.lastVerifiedMs = some 30000 ∧
      (Runs.run step morning freshRun).OwnGrace :=
  ⟨by decide +kernel, by decide +kernel,
    grace_of_fresh_signIns leftBehind briskPolicy "pc" freshRun (by decide +kernel)⟩

def inheritedRun : List (Event Int) :=
  [.signIn "alice", .iterate { now := 0 } [], .signOut {}, .signIn "bob",
    .iterate { now := 100, incoming := [.ack "call-1" .far 0] } []]

/-- Bob's grace is counted from a time recorded because of alice's connection. -/
theorem inheritedRun_grace : ¬ (Runs.run step morning inheritedRun).OwnGrace := by
  have hauth : (Runs.run step morning inheritedRun).agent.auth = some "bob" := by decide +kernel
  have htime : (Runs.run step morning inheritedRun).agent.gate.lastVerifiedMs = some 100 := by
    decide +kernel
  have hverdict : (Standing.of (Runs.run step morning inheritedRun).history).verdict =
      ⟨some "alice", false⟩ := by decide +kernel
  intro h
  rcases h "bob" hauth with hnone | hown
  · cases htime.symm.trans hnone
  · rw [hverdict] at hown
    exact absurd hown (by decide)

end Desk

/-! ## Whose token it was -/

namespace Deed

def isSession : Deed → Bool
  | .signedIn _ | .signedOut _ => true
  | _ => false

def leaver (history : List Deed) : Option String :=
  history.foldl
    (fun who m =>
      match m with
      | .signedIn _ => none
      | .signedOut (some uid) => some uid
      | _ => who) none

def Discreet (past : List Deed) (m : Deed) : Prop :=
  ∀ uid, m = .dialled (some uid) → leaver past ≠ some uid

variable {past deeds : List Deed}

theorem leaver_append (h : ∀ m ∈ deeds, m.isSession = false) :
    leaver (past ++ deeds) = leaver past := by
  induction deeds generalizing past with
  | nil => rw [append_nil]
  | cons m deeds ih =>
    have hm := h m mem_cons_self
    have hnext : leaver (past ++ [m] ++ deeds) = leaver (past ++ [m]) :=
      ih fun m' hm' => h m' (mem_cons_of_mem _ hm')
    rw [append_assoc, singleton_append] at hnext
    rw [hnext]
    unfold leaver
    rw [foldl_append]
    cases m with
    | signedIn | signedOut => cases hm
    | _ => rfl

theorem discreet_append (hpast : Each Discreet past) (htame : ∀ m ∈ deeds, m.isSession = false)
    (hmay : leaver past = none ∨ ∀ m ∈ deeds, ∀ uid, m ≠ .dialled (some uid)) :
    Each Discreet (past ++ deeds) := by
  refine hpast.append fun a m b hsplit uid hm => ?_
  rcases hmay with hnone | hquiet
  · rw [leaver_append fun m' hm' => htame m' (hsplit ▸ mem_append_left _ hm'), hnone]
    exact nofun
  · exact absurd hm (hquiet m (hsplit ▸ by simp) uid)

end Deed

section Deeds

variable {bearer : Option String} {u : Uplink} {now : Nat} {env : Uplink.PumpEnv}
  {incoming : List ServerMessage}

theorem mem_passDeeds {m : Deed} (h : m ∈ passDeeds bearer u now env incoming) :
    (m = .dialled bearer ∧ u.dials now env = true) ∨ m = .sentMedia ∨ m = .refused := by
  rcases mem_append.mp h with hm | hm
  · split at hm
    · rename_i hdials
      exact .inl ⟨mem_singleton.mp hm, hdials⟩
    · exact absurd hm not_mem_nil
  rcases mem_append.mp hm with hm | hm
  · split at hm
    · exact .inr (.inl (mem_singleton.mp hm))
    · exact absurd hm not_mem_nil
  split at hm
  · exact .inr (.inr (mem_singleton.mp hm))
  · exact absurd hm not_mem_nil

theorem passDeeds_tame : ∀ m ∈ passDeeds bearer u now env incoming, m.isSession = false := by
  intro m hm
  rcases mem_passDeeds hm with ⟨rfl, -⟩ | rfl | rfl <;> rfl

theorem passDeeds_undialled (h : bearer = none ∨ u.dials now env = false) :
    ∀ m ∈ passDeeds bearer u now env incoming, ∀ uid, m ≠ .dialled (some uid) := by
  rintro m hm uid rfl
  rcases mem_passDeeds hm with ⟨hbearer, hdials⟩ | hm | hm
  · rcases h with rfl | hoff
    · cases hbearer
    · cases hoff.symm.trans hdials
  · cases hm
  · cases hm

end Deeds

namespace Desk

variable {d : Desk dsp} {env : Agent.TickEnv α} {f : FlushEnv} {flushes : List FlushEnv}

structure Discreet (d : Desk dsp) : Prop where
  gate : d.agent.auth = none → d.agent.gate.signedIn = false
  stays : d.agent.auth ≠ none → Deed.leaver d.history = none
  opened : Each Deed.Discreet d.history

def Spent (flushes : List FlushEnv) (d : Desk dsp) : Prop :=
  (∀ f ∈ flushes, f.passes = []) ∨ d.agent.book.uplink.drained = true

instance (flushes : List FlushEnv) (d : Desk dsp) : Decidable (d.Spent flushes) :=
  inferInstanceAs (Decidable (_ ∨ _))

theorem Spent.flushDeeds (h : d.Spent flushes) (hf : f ∈ flushes) :
    flushDeeds d.token f.sliceMs d.agent.clockMs f.passes d.agent.book.uplink = [] := by
  rcases h with hnone | hdrained
  · rw [hnone f hf]
    rfl
  · exact flushDeeds_drained hdrained _ _ _

theorem Spent.flushed {d' : Desk dsp} {tail : List Deed} (h : d.Spent flushes)
    (hf : d.Flushed f tail d') : d'.Spent flushes := by
  refine h.imp_right fun hdrained => ?_
  rwa [hf.uplink, flush_drained hdrained]

theorem Spent.pumped (h : d.Spent flushes) (env : Agent.TickEnv α) : (d.pumped env).Spent flushes :=
  h.imp_right fun hdrained => pumped_drained hdrained env

theorem Spent.heartbeat (h : d.Spent flushes) (env : Agent.TickEnv α) :
    (d.heartbeat env).Spent flushes := by
  refine h.imp_right fun hdrained => ?_
  rwa [(d.heartbeat_keeps env).1]

theorem Discreet.append {d' : Desk dsp} {deeds : List Deed} (h : d.Discreet)
    (hauth : d'.agent.auth = d.agent.auth) (hgate : d'.agent.gate.signedIn = d.agent.gate.signedIn)
    (hhistory : d'.history = d.history ++ deeds) (htame : ∀ m ∈ deeds, m.isSession = false)
    (hmay : d.agent.auth ≠ none ∨ ∀ m ∈ deeds, ∀ uid, m ≠ .dialled (some uid)) : d'.Discreet := by
  refine ⟨?_, ?_, ?_⟩
  · rw [hauth, hgate]
    exact h.gate
  · rw [hauth, hhistory, Deed.leaver_append htame]
    exact h.stays
  rw [hhistory]
  exact Deed.discreet_append h.opened htame (hmay.imp_left h.stays)

theorem Discreet.captured [Inhabited α] (h : d.Discreet) {a : Agent dsp}
    (ha : Captured d.agent env a) : (d.captured a).Discreet := by
  have hspooled : ∀ m ∈ spoolDeeds d.agent.book a.book, m = .spooled := by
    intro m hm
    obtain ⟨e, -, he⟩ := mem_filterMap.mp hm
    cases e <;> simp at he
    exact he.symm
  refine h.append ha.auth ?_ rfl (fun m hm => ?_) (.inr fun m hm uid => ?_)
  · show a.gate.signedIn = _
    rw [ha.gate]
  · rw [hspooled m hm]
    rfl
  rw [hspooled m hm]
  exact nofun

theorem Discreet.pumped (h : d.Discreet)
    (hmay : d.agent.auth ≠ none ∨ d.token = none ∨ d.agent.revoked = true ∨
      d.agent.book.uplink.dials env.now env.pump = false) : (d.pumped env).Discreet := by
  obtain ⟨hauth, hsigned⟩ := d.pumped_keeps env
  rcases d.pumped_cases env with ⟨-, hd⟩ | ⟨hrevoked, hd⟩
  · exact h.append hauth hsigned (by rw [hd, append_nil])
      (forall_mem_nil _) (.inr (forall_mem_nil _))
  refine h.append hauth hsigned (hd.history.trans (append_assoc _ _ _)) (fun m hm => ?_) ?_
  · rcases mem_append.mp hm with hm | hm
    · exact passDeeds_tame m hm
    split at hm
    · rw [mem_singleton.mp hm]
      rfl
    · exact absurd hm not_mem_nil
  rcases hmay with hin | hmay
  · exact .inl hin
  refine .inr fun m hm => ?_
  rcases mem_append.mp hm with hm | hm
  · refine passDeeds_undialled ?_ m hm
    rcases hmay with htoken | hyes | hoff
    · exact .inl htoken
    · cases hrevoked.symm.trans hyes
    · exact .inr hoff
  split at hm
  · rw [mem_singleton.mp hm]
    exact nofun
  · exact absurd hm not_mem_nil

theorem Discreet.heartbeat (h : d.Discreet) (env : Agent.TickEnv α) :
    (d.heartbeat env).Discreet := by
  obtain ⟨-, hauth⟩ := d.heartbeat_keeps env
  rcases d.heartbeat_cases env with ⟨uid, -, hh, hg, -⟩ | ⟨-, hh, hg, -⟩ | ⟨hh, hg, -⟩
  · exact h.append hauth (by rw [hg]; rfl) hh (by simp [Deed.isSession]) (.inr (by simp))
  · exact h.append hauth (by rw [hg]; rfl) hh (by simp [Deed.isSession]) (.inr (by simp))
  exact h.append hauth (by rw [hg]) (by rw [hh, append_nil])
    (forall_mem_nil _) (.inr (forall_mem_nil _))

theorem Discreet.signOut (h : d.Discreet) (hmay : d.agent.auth ≠ none ∨ d.token = none ∨
      flushDeeds d.token f.sliceMs d.agent.clockMs f.passes d.agent.book.uplink = []) :
    Upholds Discreet Discreet (d.signOut f) := by
  have htame : ∀ m ∈ flushDeeds d.token f.sliceMs d.agent.clockMs f.passes d.agent.book.uplink,
      m.isSession = false :=
    flushDeeds_all f.sliceMs (fun _ _ _ _ => passDeeds_tame) _ _
  have hquiet : d.agent.auth ≠ none ∨
      ∀ m ∈ flushDeeds d.token f.sliceMs d.agent.clockMs f.passes d.agent.book.uplink,
        ∀ uid, m ≠ .dialled (some uid) := by
    refine hmay.imp_right fun hmay => ?_
    rcases hmay with htoken | hnil
    · exact flushDeeds_all f.sliceMs (fun _ _ _ _ => passDeeds_undialled (.inl htoken)) _ _
    rw [hnil]
    exact forall_mem_nil _
  refine (d.signOut_spec f).imp ?_ ?_
  · rintro d' ⟨hf, hauth, hgate⟩
    exact h.append hauth (by rw [hgate]) (by rw [hf.history, append_nil]) htame hquiet
  rintro d' ⟨hf, hauth, hgate⟩
  refine ⟨fun _ => ?_, fun hin => absurd hauth hin, ?_⟩
  · rw [hgate]
    rfl
  rw [hf.history, ← append_assoc]
  refine (Deed.discreet_append h.opened htame (hquiet.imp_left h.stays)).concat ?_
  exact nofun

theorem Discreet.signOuts (h : d.Discreet) (hmay : d.token = none ∨ d.Spent flushes) :
    (d.signOuts flushes).Discreet := by
  refine (signOuts_keeps (I := fun d => d.Discreet ∧ (d.token = none ∨ d.Spent flushes))
    (fun d hd f hf => ?_) ⟨h, hmay⟩).1
  have hkeeps : ∀ {d' tail}, d.Flushed f tail d' → d'.token = none ∨ d'.Spent flushes :=
    fun hflushed => hd.2.imp (fun htoken => hflushed.token.trans htoken) (·.flushed hflushed)
  refine (hd.1.signOut (.inr (hd.2.imp_right (·.flushDeeds hf)))).and ?_
  exact (d.signOut_spec f).imp (fun d' h => hkeeps h.1) fun d' h => hkeeps h.1

/-! ## A token goes with its user -/

def TokenRests (d : Desk dsp) : Event α → Prop
  | .iterate env flushes =>
    if d.agent.auth.isSome then
      (∀ f ∈ flushes.tail, f.passes = []) ∨
        (d.agent.book.uplink.drained = true ∧ env.source.isNone = true)
    else
      d.token = none ∨
        ((d.agent.revoked = true ∨ d.agent.book.uplink.connected = true ∨
            env.now < d.agent.book.uplink.nextAttemptMs ∨ env.pump.connects = false) ∧
          d.Spent flushes)
  | .signOut f => d.agent.auth.isSome = true ∨ d.token = none ∨ d.Spent [f]
  | _ => True

instance (d : Desk dsp) (e : Event α) : Decidable (d.TokenRests e) := by
  cases e <;> unfold TokenRests <;> infer_instance

variable [Inhabited α]

theorem Discreet.tick_signedIn (h : d.Discreet) (hin : d.agent.auth ≠ none)
    (hmay : (∀ f ∈ flushes.tail, f.passes = []) ∨
      (d.agent.book.uplink.drained = true ∧ env.source.isNone = true)) :
    (d.tick env flushes).Discreet := by
  refine tick_rule (I := fun d => d.Discreet ∧ d.agent.auth ≠ none ∧ d.Spent flushes.tail)
    (J := fun d => d.Discreet ∧ d.agent.auth ≠ none ∧ d.Spent flushes.tail)
    (K := fun d => d.Discreet ∧ d.agent.auth ≠ none ∧ d.Spent flushes.tail)
    (fun a ha => ⟨h.captured ha, ?_, ?_⟩) (fun d hd => hd.1)
    (fun d hd => ⟨hd.1.pumped (.inl hd.2.1), ?_, hd.2.2.pumped env⟩)
    (fun d hd => ⟨hd.1.heartbeat env, ?_, hd.2.2.heartbeat env⟩) (fun d hd => hd.1)
    fun d hd => ?_
  · exact fun hnone => hin (ha.auth.symm.trans hnone)
  · refine hmay.imp_right fun ⟨hdrained, hsource⟩ => ?_
    show a.book.uplink.drained = true
    rwa [ha.book (.inr (isNone_iff_eq_none.mp hsource))]
  · rw [(d.pumped_keeps env).1]
    exact hd.2.1
  · rw [(d.heartbeat_keeps env).2]
    exact hd.2.1
  obtain ⟨hdiscreet, hauth, hspent⟩ := hd
  cases flushes with
  | nil => exact hdiscreet
  | cons f rest =>
    have hout := (hdiscreet.signOut (f := f) (.inl hauth)).and (d.signOut_spec f)
    unfold Desk.signOuts
    split
    · rename_i d' hd
      rw [hd] at hout
      exact hout.1
    rename_i d' hd
    rw [hd] at hout
    exact hout.1.signOuts (.inr (hspent.flushed hout.2.1))

theorem Discreet.tick_signedOut (h : d.Discreet) (hout : d.agent.auth = none)
    (hmay : d.token = none ∨ ((d.agent.revoked = true ∨ d.agent.book.uplink.connected = true ∨
          env.now < d.agent.book.uplink.nextAttemptMs ∨ env.pump.connects = false) ∧
        d.Spent flushes)) : (d.tick env flushes).Discreet := by
  refine tick_rule
    (I := fun d' => d'.Discreet ∧ d'.token = d.token ∧ d'.agent.revoked = d.agent.revoked ∧
      d'.agent.book = d.agent.book)
    (J := fun d' => d'.Discreet ∧ (d'.token = none ∨ d'.Spent flushes))
    (K := fun d' => d'.Discreet ∧ (d'.token = none ∨ d'.Spent flushes))
    (fun a ha => ⟨h.captured ha, rfl, ha.revoked, ?_⟩) (fun d hd => hd.1) (fun d' hd => ?_)
    (fun d hd => ⟨hd.1.heartbeat env, hd.2.imp_right (·.heartbeat env)⟩) (fun d hd => hd.1)
    fun d hd => hd.1.signOuts hd.2
  · -- The gate is closed, so nothing was recorded.
    have hstatus : (d.agent.gate.status env.now).mayCapture = false := by
      rw [← Bool.not_eq_true, IdentityGate.mayCapture_status_iff, h.gate hout]
      simp
    exact ha.book (.inl hstatus)
  obtain ⟨hdiscreet, htoken, hrevoked, hbook⟩ := hd
  have hspent : d'.token = none ∨ d'.Spent flushes := by
    unfold Spent at hmay ⊢
    rw [htoken, hbook]
    exact hmay.imp_right And.right
  refine ⟨hdiscreet.pumped (.inr ?_), hspent.imp_right (·.pumped env)⟩
  rw [htoken, hrevoked, hbook]
  rcases hmay with hnone | ⟨hrev | hon | hwait | hfails, -⟩
  · exact .inl hnone
  · exact .inr (.inl hrev)
  · exact .inr (.inr (by simp [dials, hon]))
  · exact .inr (.inr (by simp [dials, hwait]))
  · exact .inr (.inr (by simp [dials, hfails]))

theorem Discreet.step (h : d.Discreet) {e : Event α} (he : d.TokenRests e) :
    (d.step e).Discreet := by
  cases e with
  | iterate env flushes =>
    have hfresh : d.refreshToken.Discreet := ⟨h.gate, h.stays, h.opened⟩
    unfold TokenRests at he
    dsimp only at he
    cases hauth : d.agent.auth with
    | some uid =>
      rw [hauth, if_pos isSome_some] at he
      refine hfresh.tick_signedIn (fun hnone => ?_) he
      rw [show d.agent.auth = none from hnone] at hauth
      cases hauth
    | none =>
      rw [hauth, if_neg (by simp)] at he
      refine hfresh.tick_signedOut hauth ?_
      have htoken : d.refreshToken.token = d.token := by
        show d.agent.auth.or d.token = d.token
        rw [hauth]
        rfl
      rwa [htoken]
  | signIn uid =>
    refine ⟨fun hnone => (by cases hnone), fun _ => ?_, h.opened.concat fun _ hm => (by cases hm)⟩
    show Deed.leaver (d.history ++ [.signedIn uid]) = none
    unfold Deed.leaver
    rw [foldl_append]
    rfl
  | signOut f =>
    have hout : Upholds Discreet Discreet (d.signOut f) := by
      refine h.signOut ?_
      rcases he with hin | htoken | hspent
      · exact .inl (isSome_iff_ne_none.mp hin)
      · exact .inr (.inl htoken)
      · exact .inr (.inr (hspent.flushDeeds (mem_singleton.mpr rfl)))
    unfold Desk.step
    dsimp only
    split
    all_goals
      rename_i d' hd
      rwa [hd] at hout
  | openCapture env =>
    unfold Desk.step Agent.openCapture
    dsimp only
    split <;> exact ⟨h.gate, h.stays, h.opened⟩
  | sessionState | recordEvent => exact ⟨h.gate, h.stays, h.opened⟩

/-- **A token goes with its user.** -/
theorem bearer_of_idle (spool : Spool) (policy : Policy) (deviceId : String) (es : List (Event α))
    (h : Runs.Along step TokenRests (start spool policy deviceId : Desk dsp) es) :
    Each Deed.Discreet (Runs.run step (start spool policy deviceId : Desk dsp) es).history := by
  have hstart : (start spool policy deviceId : Desk dsp).Discreet :=
    ⟨fun _ => rfl, fun hin => absurd rfl hin, History.each_nil⟩
  exact (h.invariant hstart fun d e hd he => hd.step he).opened

def restingRun : List (Event Int) :=
  [.signIn "alice", .iterate { now := 0 } [],
    .signOut { passes := [({}, [.ack "call-1" .far 0])] }, .iterate { now := 100 } []]

theorem restingRun_is_discreet :
    (Runs.run step morning restingRun).history =
        [.signedIn "alice", .dialled (some "alice"), .sentMedia, .signedOut (some "alice")] ∧
      Each Deed.Discreet (Runs.run step morning restingRun).history :=
  ⟨by decide +kernel, bearer_of_idle leftBehind briskPolicy "pc" restingRun (by decide +kernel)⟩

def staleRun : List (Event Int) :=
  [.signIn "alice", .signOut {}, .iterate { now := 0 } []]

/-- The next iteration opens one with their token. -/
theorem staleRun_dials : ¬ Each Deed.Discreet (Runs.run step morning staleRun).history := by
  have hhistory : (Runs.run step morning staleRun).history =
      [.signedIn "alice", .signedOut (some "alice")] ++
        .dialled (some "alice") :: [.sentMedia] := by decide +kernel
  intro h
  exact h _ _ _ hhistory "alice" rfl rfl

end Desk

end Sentinel
