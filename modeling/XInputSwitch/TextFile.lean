import Mathlib.Data.List.Induction
import XInputSwitch.Python

/-! # Text files

How texts are read and written, and how a text is cut into lines.  Reading turns each line
end of a file into `\n`, and writing turns `\n` into the line end of the platform;
`splitlines` knows more ends of lines than these.  Lines without any of them, written with
a line end after each, are read back (`readLines_writeLines`).
-/
namespace Python

/-- The line ends of platforms (`os.linesep`). -/
inductive Linesep where
  | lf
  | crlf
deriving DecidableEq, Repr

def Linesep.text : Linesep → List Char
  | .lf => ['\n']
  | .crlf => ['\r', '\n']

/-- `path.read_text()`, from what is in the file. -/
def readText : List Char → List Char
  | [] => []
  | '\r' :: '\n' :: content => '\n' :: readText content
  | '\r' :: content => '\n' :: readText content
  | c :: content => c :: readText content

/-- `path.write_text(text)`, to what is in the file. -/
def writeText (linesep : Linesep) (text : List Char) : List Char :=
  text.flatMap fun c => if c = '\n' then linesep.text else [c]

/-- The characters that end a line. -/
def isLineBreak (c : Char) : Bool :=
  (0x0A ≤ c.val && c.val ≤ 0x0D) || (0x1C ≤ c.val && c.val ≤ 0x1E) || c.val = 0x85 ||
    c.val = 0x2028 || c.val = 0x2029

/-- A text without any of them. -/
def OneLine (text : List Char) : Prop := ∀ c ∈ text, isLineBreak c = false

instance : DecidablePred OneLine := fun text =>
  decidable_of_iff ((text.all fun c => !isLineBreak c) = true) (by simp [OneLine])

/-- `splitlines()` in the middle of a line. -/
def splitlinesFrom (line : List Char) : List Char → List (List Char)
  | [] => if line = [] then [] else [line]
  | '\r' :: '\n' :: text => line :: splitlinesFrom [] text
  | c :: text =>
    if isLineBreak c then line :: splitlinesFrom [] text else splitlinesFrom (line ++ [c]) text

/-- `text.splitlines()`. -/
def splitlines (text : List Char) : List (List Char) := splitlinesFrom [] text

/-- `"\n".join(lines) + "\n"`. -/
def joinLines (lines : List (List Char)) : List Char := ['\n'].intercalate lines ++ ['\n']

/-! ## Line ends -/

theorem readText_cons {c : Char} (hc : c ≠ '\r') (content : List Char) :
    readText (c :: content) = c :: readText content := by
  simp [readText, hc]

theorem readText_writeText (linesep : Linesep) {text : List Char} (h : '\r' ∉ text) :
    readText (writeText linesep text) = text := by
  induction text with
  | nil => rfl
  | cons c text ih =>
    rw [List.mem_cons, not_or] at h
    obtain ⟨hc, htext⟩ := h
    have hcons : writeText linesep (c :: text) =
        (if c = '\n' then linesep.text else [c]) ++ writeText linesep text := List.flatMap_cons
    rw [hcons]
    split
    · subst c
      cases linesep with
      | lf =>
        show readText ('\n' :: writeText .lf text) = _
        rw [readText_cons (by decide), ih htext]
      | crlf =>
        show '\n' :: readText (writeText .crlf text) = _
        rw [ih htext]
    · rw [List.singleton_append, readText_cons (Ne.symm hc), ih htext]

/-- The beginning of a file holds the beginning of its text, also if it ends between the two
characters of a line end. -/
theorem readText_cut (linesep : Linesep) {text : List Char} (h : '\r' ∉ text)
    {content more : List Char} (hcontent : content ++ more = writeText linesep text) :
    ∃ after, readText content ++ after = text := by
  induction text generalizing content with
  | nil =>
    obtain ⟨rfl, -⟩ := List.append_eq_nil_iff.mp hcontent
    exact ⟨[], rfl⟩
  | cons c text ih =>
    rw [List.mem_cons, not_or] at h
    obtain ⟨hc, htext⟩ := h
    have hcons : writeText linesep (c :: text) =
        (if c = '\n' then linesep.text else [c]) ++ writeText linesep text := List.flatMap_cons
    rw [hcons] at hcontent
    -- one character of the text for one of the file
    have hplain (hfirst : content ++ more = c :: writeText linesep text) :
        ∃ after, readText content ++ after = c :: text := by
      cases content with
      | nil => exact ⟨c :: text, rfl⟩
      | cons d content =>
        obtain ⟨rfl, hrest⟩ := List.cons.inj hfirst
        obtain ⟨after, hafter⟩ := ih htext hrest
        exact ⟨after, by rw [readText_cons (Ne.symm hc), List.cons_append, hafter]⟩
    split at hcontent
    · subst c
      cases linesep with
      | lf => exact hplain hcontent
      | crlf =>
        match content, hcontent with
        | [], _ => exact ⟨'\n' :: text, rfl⟩
        | [d], hcontent =>
          obtain ⟨rfl, -⟩ := List.cons.inj hcontent
          exact ⟨text, rfl⟩
        | d :: e :: content, hcontent =>
          obtain ⟨rfl, hsecond⟩ := List.cons.inj hcontent
          obtain ⟨rfl, hrest⟩ := List.cons.inj hsecond
          obtain ⟨after, hafter⟩ := ih htext hrest
          exact ⟨after, congrArg ('\n' :: ·) hafter⟩
    · exact hplain hcontent

/-! ## Lines -/

theorem oneLine_nil : OneLine [] := by simp [OneLine]

/-- No line has an end of a line in it. -/
theorem splitlinesFrom_forall {line : List Char} (hline : OneLine line) (text : List Char) :
    ∀ l ∈ splitlinesFrom line text, OneLine l := by
  fun_induction splitlinesFrom line text with
  | case1 => simp
  | case2 line hne => simpa using hline
  | case3 line text ih => exact List.forall_mem_cons.mpr ⟨hline, ih oneLine_nil⟩
  | case4 line c text _ hc ih => exact List.forall_mem_cons.mpr ⟨hline, ih oneLine_nil⟩
  | case5 line c text _ hc ih =>
    refine ih (List.forall_mem_append.mpr ⟨hline, ?_⟩)
    exact List.forall_mem_singleton.mpr (Bool.eq_false_iff.mpr hc)

theorem splitlines_forall (text : List Char) : ∀ l ∈ splitlines text, OneLine l :=
  splitlinesFrom_forall oneLine_nil text

theorem splitlinesFrom_cons {c : Char} (hc : c ≠ '\r') (line text : List Char) :
    splitlinesFrom line (c :: text) =
      if isLineBreak c then line :: splitlinesFrom [] text
      else splitlinesFrom (line ++ [c]) text := by
  rw [splitlinesFrom]
  simp [hc]

theorem ne_of_not_isLineBreak {c d : Char} (hc : isLineBreak c = false)
    (hd : isLineBreak d = true) : c ≠ d := by
  rintro rfl
  rw [hd] at hc
  cases hc

/-- The rest of a line. -/
theorem splitlinesFrom_append {l : List Char} (hl : OneLine l)
    (line text : List Char) :
    splitlinesFrom line (l ++ '\n' :: text) = (line ++ l) :: splitlinesFrom [] text := by
  induction l generalizing line with
  | nil =>
    rw [List.nil_append, splitlinesFrom_cons (by decide), if_pos (by decide), List.append_nil]
  | cons c l ih =>
    obtain ⟨hc, hl⟩ := List.forall_mem_cons.mp hl
    rw [List.cons_append, splitlinesFrom_cons (ne_of_not_isLineBreak hc (by decide)),
      if_neg (by simp [hc]), ih hl, List.append_assoc, List.singleton_append]

theorem joinLines_singleton (l : List Char) : joinLines [l] = l ++ ['\n'] := by
  rw [joinLines, List.intercalate_singleton]

theorem joinLines_cons_cons (l l' : List Char) (lines : List (List Char)) :
    joinLines (l :: l' :: lines) = l ++ '\n' :: joinLines (l' :: lines) := by
  simp [joinLines]

theorem splitlines_joinLines {lines : List (List Char)} (hne : lines ≠ [])
    (h : ∀ l ∈ lines, OneLine l) : splitlines (joinLines lines) = lines := by
  induction lines with
  | nil => exact absurd rfl hne
  | cons l lines ih =>
    obtain ⟨hl, hlines⟩ := List.forall_mem_cons.mp h
    cases lines with
    | nil =>
      rw [joinLines_singleton]
      exact splitlinesFrom_append hl [] []
    | cons l' lines =>
      have hrest : splitlinesFrom [] (joinLines (l' :: lines)) = l' :: lines :=
        ih (List.cons_ne_nil _ _) hlines
      rw [splitlines, joinLines_cons_cons, splitlinesFrom_append hl, hrest, List.nil_append]

theorem not_mem_joinLines {lines : List (List Char)}
    (h : ∀ l ∈ lines, OneLine l) : '\r' ∉ joinLines lines := by
  have hreturn {l : List Char} (hl : OneLine l) : '\r' ∉ l :=
    fun hmem => ne_of_not_isLineBreak (hl _ hmem) (by decide) rfl
  induction lines with
  | nil => decide
  | cons l lines ih =>
    obtain ⟨hl, hlines⟩ := List.forall_mem_cons.mp h
    cases lines with
    | nil => simp [joinLines_singleton, hreturn hl]
    | cons l' lines => simp [joinLines_cons_cons, hreturn hl, ih hlines]

/-! ## Files of lines -/

/-- What is in a file that was written with these lines. -/
def writeLines (linesep : Linesep) (lines : List (List Char)) : List Char :=
  writeText linesep (joinLines lines)

/-- The lines of a file. -/
def readLines (content : List Char) : List (List Char) := splitlines (readText content)

/-- **Lines are read back**; a file of no lines has one empty line. -/
theorem readLines_writeLines (linesep : Linesep) {lines : List (List Char)}
    (h : ∀ l ∈ lines, OneLine l) :
    readLines (writeLines linesep lines) = if lines = [] then [[]] else lines := by
  rw [readLines, writeLines, readText_writeText linesep (not_mem_joinLines h)]
  split
  · subst lines
    decide
  · exact splitlines_joinLines ‹_› h

/-- And a file of one empty line is the same file. -/
theorem writeLines_nil (linesep : Linesep) : writeLines linesep [[]] = writeLines linesep [] := rfl

end Python
