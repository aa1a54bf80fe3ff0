import Mathlib.Data.List.Destutter
import Sentinel.Lib.Dynamic
import Sentinel.Workers.Models
import Sentinel.Workers.CallKey

/-!
# Finding terms and patterns in a transcript

The first half of `compliance/engine.py`: how a text is folded so that a term meets its inflections
and spellings, and how occurrences on one channel are located in time.
-/

namespace Sentinel.Workers

/-! ## The library -/

inductive Category where
  | letter
  | number
  | nonspacingMark
  | spacingMark
  | enclosingMark
  | format
  | other
  deriving DecidableEq, Repr

def Category.isText : Category → Bool
  | .format | .other => false
  | _ => true

inductive Compiled where
  | pattern (finditer : List Char → List (Nat × Nat))
  | error
  | raises

structure LocalTime where
  time : Nat
  zone : String
  deriving DecidableEq, Repr

structure PyLibrary where
  nfkc : List Char → List Char
  casefold : List Char → List Char
  category : Char → Category
  isalpha : Char → Bool
  isLatin : Char → Bool
  compile : String → Compiled
  introduces : List Char → Bool
  int : String → Option Int
  float : Json → Option JsonNum
  astimezone : String → Int → Option LocalTime

variable (py : PyLibrary)

/-! ## Folding -/

def squeeze : Bool → List Char → List Char
  | _, [] => []
  | blank, c :: cs =>
    if isSpace c then if blank then squeeze true cs else ' ' :: squeeze true cs
    else c :: squeeze false cs

def normalise (text : List Char) : List Char :=
  let kept := (py.casefold (py.nfkc text)).filterMap fun c =>
    if isSpace c || (py.category c).isText then some c
    else if py.category c = .format then none
    else some ' '
  strip (squeeze false kept)

def replacePair (a b dst : Char) : List Char → List Char
  | x :: y :: cs =>
    if x = a ∧ y = b then dst :: replacePair a b dst cs else x :: replacePair a b dst (y :: cs)
  | cs => cs

def romanDigraphs : List (Char × Char × Char) :=
  [('e', 'e', 'i'), ('o', 'o', 'u'), ('i', 'i', 'i'), ('u', 'u', 'u'), ('a', 'a', 'a')]

def romanLetter : Char → Char
  | 'z' => 'j'
  | 'w' => 'v'
  | 'q' => 'k'
  | c => c

def replaceEnding (endings : List (List Char)) (put : List Char) (word : List Char) : List Char :=
  match endings.find? fun e => e <:+ word with
  | some e => word.take (word.length - e.length) ++ put
  | none => word

def orWord (stem word : List Char) : List Char := if stem = [] then word else stem

def romanisedWord (word : List Char) : List Char :=
  let word := romanDigraphs.foldl (fun w d => replacePair d.1 d.2.1 d.2.2 w) word
  let word := (word.map romanLetter).destutter (· ≠ ·)
  let word := replaceEnding [['e', 'y'], ['a', 'y']] ['e'] word
  let word := orWord (replaceEnding [['o', 'n'], ['e', 'n'], ['o']] [] word) word
  let word := orWord (replaceEnding [['s']] [] word) word
  orWord (word.rdropWhile fun c => c ∈ ['a', 'e', 'i', 'o', 'u']) word

def indicWord (word : List Char) : List Char :=
  orWord (word.rdropWhile fun c =>
    py.category c = .nonspacingMark || py.category c = .spacingMark) word

def splitBlank (text : List Char) : List (List Char) := text.splitOn ' '

def joinBlank (words : List (List Char)) : List Char := [' '].intercalate words

def romanised (text : List Char) : List Char :=
  joinBlank ((splitBlank (normalise py text)).map romanisedWord)

def indic (text : List Char) : List Char :=
  joinBlank ((splitBlank (normalise py text)).map (indicWord py))

def isLatin (text : List Char) : Bool :=
  match text.find? py.isalpha with
  | some c => py.isLatin c
  | none => true

/-! ## Terms -/

structure Term where
  text : Json
  language : String

def Term.text? (term : Term) : Option (List Char) := term.text.asStr?.map String.toList

def foldFor (language : String) (text : List Char) : List Char → List Char :=
  if !isLatin py text then indic py
  else if language = "en" then normalise py
  else romanised py

def termsOf (params : Json) (key : String) : Option (List Term) := do
  let byLanguage ← (Json.orDefault (← params.getField? key) (.obj [])).items?
  let lists ← byLanguage.mapM fun f => f.2.iterate?.map fun terms =>
    terms.map fun text => { text, language := f.1 }
  pure lists.flatten

structure Hit where
  startMs : Int
  endMs : Int
  text : String
  deriving DecidableEq, Repr

def ChannelTranscript.spanText (t : ChannelTranscript) (startMs endMs : Int) : String :=
  if t.words = [] then if startMs ≤ 0 then t.text else ""
  else " ".intercalate
    ((t.words.filter fun w => w.startMs < endMs ∧ startMs < w.endMs).map (·.text))

def occurrences (words : List Word) (folded parts : List (List Char))
    (window : Option (Int × Int)) : List Hit :=
  (List.range (folded.length + 1 - parts.length)).filterMap fun i =>
    if (folded.drop i).take parts.length = parts then
      let covered := (words.drop i).take parts.length
      match covered.head?, covered.getLast? with
      | some first, some last =>
        if window.all fun w => first.startMs < w.2 ∧ w.1 < last.endMs then
          some ⟨first.startMs, last.endMs, " ".intercalate (covered.map (·.text))⟩
        else none
      | _, _ => none
    else none

def termHits (t : ChannelTranscript) (window : Option (Int × Int)) (language : String)
    (text : List Char) : List Hit :=
  let fold := foldFor py language text
  let needle := fold text
  if needle = [] then []
  -- Without timings, the whole channel is the span.
  else if t.words = [] then
    if needle <:+: fold t.text.toList then [⟨0, 0, String.ofList text⟩] else []
  else
    occurrences t.words (t.words.map fun w => fold w.text.toList) (splitBlank needle) window

def findTerms (t : ChannelTranscript) (terms : List Term) (window : Option (Int × Int)) :
    Option (List Hit) :=
  (terms.mapM fun (term : Term) =>
    term.text?.map (termHits py t window term.language)).map List.flatten

/-! ## Patterns -/

def findFrom (text needle : List Char) (cursor : Nat) : Option Nat :=
  (List.range (text.length + 1)).find? fun i => cursor ≤ i ∧ needle <+: text.drop i

def spanLoop (text : List Char) (startChar endChar : Nat) :
    List Word → Nat → Option Int → Int → Option Int × Int
  | [], _, startMs, endMs => (startMs, endMs)
  | w :: words, cursor, startMs, endMs =>
    match findFrom text w.text.toList cursor with
    | none => spanLoop text startChar endChar words cursor startMs endMs
    | some idx =>
      let cursor := idx + w.text.length
      if idx < endChar ∧ startChar < cursor then
        spanLoop text startChar endChar words cursor (some (startMs.getD w.startMs)) w.endMs
      else spanLoop text startChar endChar words cursor startMs endMs

def charSpanToTime (t : ChannelTranscript) (startChar endChar : Nat) : Int × Int :=
  match spanLoop t.text.toList startChar endChar t.words 0 none 0 with
  | (some startMs, endMs) => (startMs, endMs)
  | (none, _) => (0, 0)

def patternHits (t : ChannelTranscript) (pattern : Json) : Option (List Hit) :=
  match pattern with
  | .str p =>
    match py.compile p with
    | .pattern finditer => some ((finditer t.text.toList).map fun m =>
        let span := charSpanToTime t m.1 m.2
        ⟨span.1, span.2, String.ofList ((t.text.toList.drop m.1).take (m.2 - m.1))⟩)
    | .error => some []
    | .raises => none
  | _ => none

def findPatterns (t : ChannelTranscript) (patterns : Json) : Option (List Hit) := do
  if t.text = "" then pure []
  else
    let hits ← (← patterns.iterate?).mapM (patternHits py t)
    pure hits.flatten

end Sentinel.Workers
