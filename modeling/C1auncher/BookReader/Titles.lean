import C1auncher.CString
import C1auncher.Runs

/-!
The headings of a book's text: which lines are chapter or volume titles.
-/

namespace C1auncher.BookReader.Titles

open CString Runs List

def isSpace (c : Char) : Bool :=
  let n := c.toNat
  (9 ≤ n && n ≤ 13) || n == 0x20 || n == 0x85 || n == 0xa0 || n == 0x1680 ||
    (0x2000 ≤ n && n ≤ 0x200a) || n == 0x2028 || n == 0x2029 || n == 0x202f || n == 0x205f ||
    n == 0x3000

def trim (cut : Char → Bool) (text : Text) : Text := (text.dropWhile cut).rdropWhile cut

def trimSpace : Text → Text := trim isSpace

def patternSpace (c : Char) : Bool := ['\t', '\n', '\x0c', '\r', ' '].contains c

/-- What may follow a heading's number: nothing, or a mark or blank and the rest of the line. -/
def endingMark (c : Char) : Bool := ['：', ':', '　'].contains c || patternSpace c

def ending : Text → Bool
  | [] => true
  | c :: rest => endingMark c && rest.all (· != '\n')

def ordinal (c : Char) : Bool := c == '第'

def headingUnit (c : Char) : Bool := ['章', '节', '卷', '回', '部', '篇'].contains c

def volumeUnit (c : Char) : Bool := ['卷', '部', '篇'].contains c

def matches_ (rs : List (Run Char)) (accept : Text → Bool) (text : Text) : Bool :=
  (capture accept rs text).isSome

def chapterTitlePattern : List (Run Char) :=
  [one ordinal, ⟨(· != '\n'), 1, some 30⟩, one headingUnit]

/-- The numerals of a title: Chinese ones, or ASCII digits. -/
def titleNumeral (c : Char) : Bool :=
  ['一', '二', '三', '四', '五', '六', '七', '八', '九', '十', '百', '千', '万', '零', '〇'].contains c ||
    c.isDigit

def volumeTitlePattern : List (Run Char) := [one volumeUnit, ⟨titleNumeral, 1, none⟩]

def decoratedNumeral (c : Char) : Bool := titleNumeral c || c == '两'

/-- The text behind the last run, to the end of the line, is the third group. -/
def decoratedChapterPattern : List (Run Char) :=
  [⟨ordinal, 0, some 1⟩, ⟨decoratedNumeral, 1, some 16⟩, one (['章', '节', '回'].contains ·)]

/-- A unit in the title must not turn a chapter into a volume. -/
def ordinalVolumePattern : List (Run Char) :=
  [one ordinal, ⟨fun c => !headingUnit c, 1, some 30⟩, one volumeUnit]

def isVolumeTitle (title : Text) : Bool :=
  matches_ ordinalVolumePattern ending title || matches_ volumeTitlePattern ending title

/-- A heading behind a bracketed volume, with the volume as its context. -/
def decoratedTitle (tail volume : Text) : Option Text :=
  match capture (fun rest => rest.all (· != '\n')) decoratedChapterPattern tail with
  | some ([_, number, unit], rest) =>
    some ('第' :: number ++ unit ++ ' ' :: trimSpace rest ++ ' ' :: '·' :: ' ' :: volume)
  | _ =>
    if matches_ chapterTitlePattern ending tail then some (tail ++ ' ' :: '·' :: ' ' :: volume)
    else none

def bracketPairs : List (Char × Char) := ['〖', '【', '[', '［'].zip ['〗', '】', ']', '］']

def bracketed (pair : Char × Char) (text : Text) : Option Text :=
  match text with
  | [] => none
  | c :: rest =>
    if c = pair.1 then
      let inner := rest.takeWhile (· != pair.2)
      let volume := trimSpace inner
      let tail := trimSpace (rest.drop (inner.length + 1))
      let decorated := if inner.length < rest.length && tail ≠ [] &&
        matches_ chapterTitlePattern ending volume then decoratedTitle tail volume else none
      match decorated with
      | some title => some title
      | none =>
        if rest.getLast? = some pair.2 then some (trimSpace rest.dropLast) else none
    else none

def normalizedChapterTitle (text : Text) : Text :=
  let text := trimSpace text
  (bracketPairs.findSome? (bracketed · text)).getD text

def isChapterTitle (text : Text) : Bool :=
  let text := normalizedChapterTitle text
  if text = [] || 80 < text.length then false
  else matches_ chapterTitlePattern ending text || matches_ volumeTitlePattern ending text

example : normalizedChapterTitle "【第一卷 起】 12章 山".toList = "第12章 山 · 第一卷 起".toList := by
  decide

/-- Common export separators are not the introduction of a volume. -/
def separator (c : Char) : Bool :=
  [' ', '\t', '\r', '\n', '　', '-', '—', '–', '_', '=', '＝', '~', '～', '*', '＊', '·', '•', '─',
    '━'].contains c

def meaningfulBodyLine (text : Text) : Bool := trim separator text != []

/-! ### What the patterns say of a volume title -/

lemma fits_one {p : Char → Bool} {part : Text} : (one p).Fits part ↔ ∃ c, p c ∧ part = [c] := by
  constructor
  · rintro ⟨hall, hleast, hmost⟩
    have hlen : part.length = 1 := Nat.le_antisymm (hmost 1 rfl) hleast
    obtain ⟨c, rfl⟩ := List.length_eq_one_iff.mp hlen
    exact ⟨c, hall c mem_cons_self, rfl⟩
  · rintro ⟨c, hc, rfl⟩
    refine ⟨fun d hd => ?_, Nat.le_refl 1, fun m hm => by cases hm; exact Nat.le_refl 1⟩
    rwa [List.mem_singleton.mp hd]

lemma head_trim (cut : Char → Bool) (text : Text) : ∀ c ∈ (trim cut text).head?, cut c = false := by
  intro c hc
  obtain ⟨more, hmore⟩ := rdropWhile_prefix cut (text.dropWhile cut)
  have hhead : (text.dropWhile cut).head? = some c := by
    rw [← hmore, head?_append]
    change ((text.dropWhile cut).rdropWhile cut).head? = some c at hc
    rw [hc]
    rfl
  have hnot := head?_dropWhile_not cut text
  rw [hhead] at hnot
  exact hnot

lemma trim_trim (cut : Char → Bool) (text : Text) : trim cut (trim cut text) = trim cut text := by
  have hhead := head_trim cut text
  have hself : (trim cut text).dropWhile cut = trim cut text := by
    rcases htrim : trim cut text with _ | ⟨c, rest⟩
    · rfl
    · rw [htrim] at hhead
      rw [dropWhile_cons_of_neg (by rw [hhead c rfl]; simp)]
  have hlast : (trim cut text).rdropWhile cut = trim cut text := rdropWhile_idempotent _ _
  conv_lhs => rw [trim, hself, hlast]

lemma trimSpace_trimSpace (text : Text) : trimSpace (trimSpace text) = trimSpace text :=
  trim_trim isSpace text

lemma rdropWhile_append {cut : Char → Bool} {text rest : Text}
    (h : ∀ c ∈ text.getLast?, cut c = false) :
    (text ++ rest).rdropWhile cut = text ++ rest.rdropWhile cut := by
  induction rest using reverseRecOn with
  | nil =>
    rw [rdropWhile_nil, append_nil, rdropWhile_eq_self_iff]
    intro hne
    rw [h _ (getLast?_eq_some_getLast hne)]
    simp
  | append_singleton rest c ih =>
    rw [← append_assoc, rdropWhile_concat, rdropWhile_concat, ih]
    split
    · rfl
    · rw [append_assoc]

lemma ending_head {text : Text} (h : ending text) : ∀ c ∈ text.head?, endingMark c := by
  rcases text with _ | ⟨c, rest⟩
  · simp
  intro d hd
  cases hd
  exact (Bool.and_eq_true_iff.mp h).1

end C1auncher.BookReader.Titles
