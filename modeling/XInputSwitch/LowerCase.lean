import XInputSwitch.Python

/-! # Lower case

`s.lower()` goes letter by letter through a table, in which a capital letter can stand for
more than one small one.  Only what becomes of a capital sigma depends on what is around
it: `ς` at the end of a word and `σ` elsewhere (`LowerForm` leaves this open).

Hence a text is its own lower case if and only if its letters are, wherever it stands
(`LowerForm.eq_of_prefix`), and two lower cases of one text differ by final sigmas only
(`LowerForm.foldSigma_eq`).
-/
namespace Python

/-- The second text can be the lower case of the first. -/
inductive LowerForm (table : Char → List Char) : List Char → List Char → Prop
  | nil : LowerForm table [] []
  | letter (c : Char) {s x : List Char} (h : LowerForm table s x) :
    LowerForm table (c :: s) (table c ++ x)
  | finalSigma {s x : List Char} (h : LowerForm table s x) :
    LowerForm table ('Σ' :: s) ('ς' :: x)

/-- What is documented of `lower`. -/
structure Runtime.LowersBy (py : Runtime) (table : Char → List Char) : Prop where
  form : ∀ s, LowerForm table s.toList (py.lower s).toList
  table_ne_nil : ∀ c, table c ≠ []
  /-- a letter that stays stays alone -/
  table_self : ∀ c t, table c = c :: t → t = []
  table_sigma : table 'Σ' = ['σ']
  /-- blanks stay, nothing else becomes one, and no word goes across them -/
  lower_strip : ∀ s, py.lower (strip s) = strip (py.lower s)

namespace LowerForm
variable {table : Char → List Char}

theorem append_inv {s t z : List Char} (h : LowerForm table (s ++ t) z) :
    ∃ x y, z = x ++ y ∧ LowerForm table s x ∧ LowerForm table t y := by
  induction s generalizing z with
  | nil => exact ⟨[], z, rfl, .nil, h⟩
  | cons c s ih =>
    cases h with
    | letter _ h =>
      obtain ⟨x, y, rfl, hx, hy⟩ := ih h
      exact ⟨table c ++ x, y, (List.append_assoc ..).symm, .letter c hx, hy⟩
    | finalSigma h =>
      obtain ⟨x, y, rfl, hx, hy⟩ := ih h
      exact ⟨'ς' :: x, y, rfl, .finalSigma hx, hy⟩

section Laws
variable {py : Runtime} (hpy : py.LowersBy table)
include hpy

theorem length_le {s x : List Char} (h : LowerForm table s x) : s.length ≤ x.length := by
  induction h with
  | nil => exact le_rfl
  | letter c _ ih =>
    have hpos : 0 < (table c).length := List.length_pos_of_ne_nil (hpy.table_ne_nil c)
    rw [List.length_cons, List.length_append]
    omega
  | finalSigma _ ih => exact Nat.succ_le_succ ih

/-- A text that its lower case begins with has no other lower case: none of its letters
changes. -/
theorem eq_of_prefix {s x y : List Char} (hx : LowerForm table s x) (hpre : s <+: x)
    (hy : LowerForm table s y) : y = s := by
  induction hx generalizing y with
  | nil =>
    cases hy
    rfl
  | @letter c s x _ ih =>
    -- the entry of the letter begins with it, so it is the letter
    have hself : table c = [c] := by
      cases hentry : table c with
      | nil => exact absurd hentry (hpy.table_ne_nil c)
      | cons d t =>
        rw [hentry, List.cons_append, List.cons_prefix_cons] at hpre
        obtain rfl := hpre.1
        rw [hpy.table_self c t hentry]
    rw [hself, List.singleton_append, List.cons_prefix_cons] at hpre
    cases hy with
    | letter _ hy => rw [hself, ih hpre.2 hy, List.singleton_append]
    | finalSigma _ =>
      rw [hpy.table_sigma] at hself
      cases hself
  | finalSigma _ _ => cases (List.cons_prefix_cons.mp hpre).1

end Laws
end LowerForm

/-! ## Final sigmas -/

def foldSigma (c : Char) : Char := if c = 'ς' then 'σ' else c

theorem LowerForm.foldSigma_eq {table : Char → List Char} (hsigma : table 'Σ' = ['σ'])
    {s x y : List Char} (hx : LowerForm table s x) (hy : LowerForm table s y) :
    x.map foldSigma = y.map foldSigma := by
  induction hx generalizing y with
  | nil =>
    cases hy
    rfl
  | letter c _ ih =>
    cases hy with
    | letter _ hy => rw [List.map_append, List.map_append, ih hy]
    | finalSigma hy =>
      rw [hsigma, List.map_append, ih hy]
      rfl
  | finalSigma _ ih =>
    cases hy with
    | letter _ hy =>
      rw [hsigma, List.map_append, List.map_cons, ih hy]
      rfl
    | finalSigma hy => rw [List.map_cons, List.map_cons, ih hy]

theorem isSpace_foldSigma (c : Char) : isSpace (foldSigma c) = isSpace c := by
  unfold foldSigma
  split
  · subst c
    rfl
  · rfl

/-- A text without small sigmas is no other one with its final sigmas changed. -/
theorem eq_of_foldSigma_eq {x y : List Char} (h : x.map foldSigma = y.map foldSigma)
    (hx : ∀ c ∈ x, c ≠ 'ς' ∧ c ≠ 'σ') : y = x := by
  induction x generalizing y with
  | nil => exact List.map_eq_nil_iff.mp h.symm
  | cons c x ih =>
    cases y with
    | nil => cases h
    | cons d y =>
      obtain ⟨hletter, hrest⟩ := List.cons.inj h
      obtain ⟨hfinal, hsmall⟩ := hx c (.head _)
      have hd : d = c := by
        unfold foldSigma at hletter
        rw [if_neg hfinal] at hletter
        split at hletter
        · exact absurd hletter hsmall
        · exact hletter.symm
      rw [hd, ih hrest fun c' hc' => hx c' (.tail _ hc')]

/-! ## Blanks -/

section Blanks
variable {f : Char → Char} (hf : ∀ c, isSpace (f c) = isSpace c)
include hf

theorem dropWhile_map (cs : List Char) :
    (cs.map f).dropWhile isSpace = (cs.dropWhile isSpace).map f := by
  have hcomp : isSpace ∘ f = isSpace := funext hf
  rw [List.dropWhile_map, hcomp]

theorem stripList_map (cs : List Char) : stripList (cs.map f) = (stripList cs).map f := by
  unfold stripList
  rw [dropWhile_map hf, ← List.map_reverse, dropWhile_map hf, List.map_reverse]

theorem firstWord_map (s : String) :
    (firstWord (String.ofList (s.toList.map f))).toList = (firstWord s).toList.map f := by
  have hcomp : (fun c => !isSpace c) ∘ f = fun c => !isSpace c :=
    funext fun c => congrArg not (hf c)
  simp only [firstWord, String.toList_ofList]
  rw [dropWhile_map hf, List.takeWhile_map, hcomp]

end Blanks

/-! ## A library with the laws -/

/-- Lower case in ASCII and of the sigma, never final. -/
def toLowerSigma (c : Char) : Char := if c = 'Σ' then 'σ' else c.toLower

/-- A library that lowers ASCII and the sigma, and reads and writes no numbers. -/
def Runtime.sigma : Runtime where
  lower s := String.ofList (s.toList.map toLowerSigma)
  lower_ascii s hs := by
    refine congrArg String.ofList (List.map_congr_left fun c hc => if_neg ?_)
    rintro rfl
    exact absurd (hs _ hc) (by decide)
  repr _ := ""
  parseFloat _ := none

theorem isSpace_of_printable {c : Char} (h : 0x21 ≤ c.val.toNat) (h' : c.val.toNat ≤ 0x7E) :
    isSpace c = false := by
  simp only [isSpace, Bool.or_eq_false_iff, Bool.and_eq_false_iff, decide_eq_false_iff_not,
    UInt32.le_iff_toNat_le, ← UInt32.toNat_inj]
  simp only [UInt32.reduceToNat]
  omega

theorem isSpace_toLower (c : Char) : isSpace c.toLower = isSpace c := by
  unfold Char.toLower
  split
  · rename_i h
    have hlow : 65 ≤ c.val.toNat := UInt32.le_iff_toNat_le.mp h.1
    have hhigh : c.val.toNat ≤ 90 := UInt32.le_iff_toNat_le.mp h.2
    have hval : (c.val + ('a'.val - 'A'.val)).toNat = c.val.toNat + 32 := by
      rw [UInt32.toNat_add]
      exact Nat.mod_eq_of_lt (show c.val.toNat + 32 < 2 ^ 32 by omega)
    rw [isSpace_of_printable (c := c) (by omega) (by omega)]
    exact isSpace_of_printable (by rw [hval]; omega) (by rw [hval]; omega)
  · rfl

theorem Runtime.sigma_lowersBy : Runtime.sigma.LowersBy fun c => [toLowerSigma c] where
  form s := by
    have hform (cs : List Char) :
        LowerForm (fun c => [toLowerSigma c]) cs (cs.map toLowerSigma) := by
      induction cs with
      | nil => exact .nil
      | cons c cs ih => exact .letter c ih
    simpa [Runtime.sigma] using hform s.toList
  table_ne_nil _ := List.cons_ne_nil _ _
  table_self _ _ h := (List.cons.inj h).2.symm
  table_sigma := rfl
  lower_strip s := by
    have hspace (c : Char) : isSpace (toLowerSigma c) = isSpace c := by
      unfold toLowerSigma
      split
      · subst c
        rfl
      · exact isSpace_toLower c
    simp only [Runtime.sigma, strip, String.toList_ofList, stripList_map hspace]

end Python
