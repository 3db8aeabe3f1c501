import Mathlib.Algebra.Order.Ring.Rat
import Mathlib.Data.List.DropRight
import Mathlib.Data.Rat.Defs
import Mathlib.Tactic.Linarith
import Mathlib.Tactic.NormNum

/-! # Values of a Python program

The values that `json.loads` can return, with what a program does to them: truth values,
`float()`, `min` and `max`, iteration, and the text methods.

Floats are rationals with infinities and not-a-number: comparisons are those of IEEE
arithmetic, rounding is left out.  What depends on tables of the language's own library
(lower case outside ASCII, the text of a number, numbers in texts) is a parameter with
the documented properties that are used (`Runtime`).
-/
namespace Python

/-! ## Floats -/

inductive Double where
  | nan
  | negInf
  | finite (x : ℚ)
  | posInf
deriving DecidableEq

namespace Double

/-- `a < b`; nothing compares with not-a-number. -/
def lt : Double → Double → Bool
  | .negInf, .finite _ => true
  | .negInf, .posInf => true
  | .finite x, .finite y => x < y
  | .finite _, .posInf => true
  | _, _ => false

/-- `min(a, b)`: the second argument only if it is smaller. -/
def min (a b : Double) : Double := if b.lt a then b else a

/-- `max(a, b)`: the second argument only if it is greater. -/
def max (a b : Double) : Double := if a.lt b then b else a

/-- The value of a finite float. -/
def toRat : Double → ℚ
  | .finite x => x
  | _ => 0

/-- What is not above an upper limit becomes finite, and within the limits, by `max`. -/
theorem max_finite {low high : ℚ} (h : low ≤ high) {x : Double}
    (hx : lt (.finite high) x = false) :
    ∃ y, max (.finite low) x = .finite y ∧ low ≤ y ∧ y ≤ high := by
  cases x with
  | nan => exact ⟨low, rfl, le_refl _, h⟩
  | negInf => exact ⟨low, rfl, le_refl _, h⟩
  | posInf => cases hx
  | finite x =>
    have hle : x ≤ high := not_lt.mp (of_decide_eq_false hx)
    by_cases hlt : low < x
    · exact ⟨x, by simp [max, lt, hlt], le_of_lt hlt, hle⟩
    · exact ⟨low, by simp [max, lt, hlt], le_refl _, h⟩

theorem min_finite_finite (x y : ℚ) : min (.finite x) (.finite y) = .finite (Min.min x y) := by
  by_cases h : y < x
  · simp [min, lt, h, min_eq_right h.le]
  · simp [min, lt, h, min_eq_left (not_lt.mp h)]

theorem max_finite_finite (x y : ℚ) : max (.finite x) (.finite y) = .finite (Max.max x y) := by
  by_cases h : x < y
  · simp [max, lt, h, max_eq_right h.le]
  · simp [max, lt, h, max_eq_left (not_lt.mp h)]

theorem not_lt_self (x : ℚ) : lt (.finite x) (.finite x) = false := by simp [lt]

/-- `max(low, min(x, high))` is finite, and within its limits, for every float; `nan`
gives the lower limit. -/
theorem clamp_min_first {low high : ℚ} (h : low ≤ high) (x : Double) :
    ∃ y, max (.finite low) (min x (.finite high)) = .finite y ∧ low ≤ y ∧ y ≤ high := by
  apply max_finite h
  unfold min
  split
  · exact not_lt_self high
  · rename_i hx
    exact Bool.eq_false_iff.mpr hx

theorem lt_asymm {x : ℚ} {y : Double} (h : y.lt (.finite x) = true) : lt (.finite x) y = false := by
  cases y with
  | finite y =>
    have hlt : y < x := of_decide_eq_true h
    exact decide_eq_false (not_lt.mpr hlt.le)
  | negInf => rfl
  | nan => cases h
  | posInf => cases h

/-- `max(low, min(high, x))` too; here `nan` gives the upper limit. -/
theorem clamp_min_second {low high : ℚ} (h : low ≤ high) (x : Double) :
    ∃ y, max (.finite low) (min (.finite high) x) = .finite y ∧ low ≤ y ∧ y ≤ high := by
  apply max_finite h
  unfold min
  split
  · rename_i hx
    exact lt_asymm hx
  · exact not_lt_self high

end Double

/-! ## Values -/

inductive Value where
  | none
  | bool (b : Bool)
  | int (n : Int)
  | float (x : Double)
  | str (s : String)
  | list (xs : List Value)
  | dict (entries : List (String × Value))

inductive Exception where
  | typeError
  | valueError
  | overflowError
  | attributeError
  /-- any other -/
  | other
deriving DecidableEq, Repr

namespace Value

/-- The truth value. -/
def truthy : Value → Bool
  | .none => false
  | .bool b => b
  | .int n => n ≠ 0
  | .float x => x ≠ .finite 0
  | .str s => s ≠ ""
  | .list xs => !xs.isEmpty
  | .dict entries => !entries.isEmpty

/-- `a or b`. -/
def orElse (a b : Value) : Value := if a.truthy then a else b

/-- What a `for` loop runs over. -/
def elements : Value → Except Exception (List Value)
  | .str s => .ok (s.toList.map fun c => .str (String.singleton c))
  | .list xs => .ok xs
  | .dict entries => .ok (entries.map fun e => .str e.1)
  | _ => .error .typeError

/-- The value of a number. -/
def number : Value → Option Double
  | .int n => some (.finite n)
  | .float x => some x
  | _ => Option.none

/-- The same value, numbers compared by value. -/
def Same (v w : Value) : Prop := v = w ∨ ∃ x, v.number = some x ∧ w.number = some x

/-- A whole number that rounds to something above the greatest float. -/
def overflows : Value → Bool
  | .int n => !decide (n.natAbs < 2 ^ 1024 - 2 ^ 970)
  | _ => false

/-- A `for` loop over `v or []` does not raise. -/
def loops (v : Value) : Bool := (v.orElse (.list [])).elements.isOk

end Value

/-- `d.get(key, default)`. -/
def get (d : List (String × Value)) (key : String) (default : Value) : Value :=
  (d.lookup key).getD default

/-- `key in d`. -/
def has (d : List (String × Value)) (key : String) : Bool := (d.lookup key).isSome

/-- What is looked up is there. -/
theorem mem_of_lookup {κ β : Type} [BEq κ] [LawfulBEq κ] {l : List (κ × β)} {k : κ} {b : β}
    (h : l.lookup k = some b) : (k, b) ∈ l := by
  obtain ⟨l₁, l₂, rfl, -⟩ := List.lookup_eq_some_iff.mp h
  simp

/-- A key whose entries all have one value. -/
theorem lookup_of_forall {κ β : Type} [BEq κ] [LawfulBEq κ] {l : List (κ × β)} {k : κ} {b : β}
    (hmem : (k, b) ∈ l) (h : ∀ b', (k, b') ∈ l → b' = b) : l.lookup k = some b := by
  cases hlookup : l.lookup k with
  | none => simpa using List.lookup_eq_none_iff.mp hlookup _ hmem
  | some b' => rw [h b' (mem_of_lookup hlookup)]

/-! ## Texts -/

/-- The characters for which `isspace` holds. -/
def isSpace (c : Char) : Bool :=
  (0x09 ≤ c.val && c.val ≤ 0x0D) || (0x1C ≤ c.val && c.val ≤ 0x20) || c.val = 0x85 ||
    c.val = 0xA0 || c.val = 0x1680 || (0x2000 ≤ c.val && c.val ≤ 0x200A) || c.val = 0x2028 ||
    c.val = 0x2029 || c.val = 0x202F || c.val = 0x205F || c.val = 0x3000

/-- `strip()` on the characters of a text. -/
def stripList (cs : List Char) : List Char :=
  ((cs.dropWhile isSpace).reverse.dropWhile isSpace).reverse

/-- `s.strip()`. -/
def strip (s : String) : String := String.ofList (stripList s.toList)

/-- A stripped text does not begin with a blank, since it is the beginning of one that does
not, and nothing is left to strip. -/
theorem stripList_stripList (cs : List Char) : stripList (stripList cs) = stripList cs := by
  have hdrop : (cs.dropWhile isSpace).dropWhile isSpace = cs.dropWhile isSpace :=
    List.dropWhile_idempotent ..
  have hpre : stripList cs <+: cs.dropWhile isSpace := List.rdropWhile_prefix ..
  have hhead : (stripList cs).dropWhile isSpace = stripList cs := by
    rw [List.dropWhile_eq_self_iff] at hdrop ⊢
    intro hlen
    rw [hpre.getElem hlen]
    exact hdrop (lt_of_lt_of_le hlen hpre.length_le)
  show ((stripList cs).dropWhile isSpace).rdropWhile isSpace = _
  rw [hhead]
  exact List.rdropWhile_idempotent ..

@[simp] theorem strip_strip (s : String) : strip (strip s) = strip s := by
  simp only [strip, String.toList_ofList, stripList_stripList]

theorem stripList_sublist (cs : List Char) : (stripList cs).Sublist cs := by
  have hpre : stripList cs <+: cs.dropWhile isSpace := List.rdropWhile_prefix ..
  exact hpre.sublist.trans (List.dropWhile_sublist _)

theorem dropWhile_of_stripList {s : List Char} (h : stripList s = s) :
    s.dropWhile isSpace = s ∧ s.rdropWhile isSpace = s := by
  have hpre : s <+: s.dropWhile isSpace := by
    have hpre : stripList s <+: s.dropWhile isSpace := List.rdropWhile_prefix ..
    rwa [h] at hpre
  have hdrop : s.dropWhile isSpace = s :=
    (List.dropWhile_suffix isSpace).eq_of_length_le hpre.length_le
  refine ⟨hdrop, ?_⟩
  have hboth : (s.dropWhile isSpace).rdropWhile isSpace = s := h
  rwa [hdrop] at hboth

/-- Blanks after a text that neither begins nor ends in one. -/
theorem stripList_append {s : List Char} (hne : s ≠ []) (hs : stripList s = s) (t : List Char) :
    stripList (s ++ t) = s ++ t.rdropWhile isSpace := by
  obtain ⟨hdrop, hrdrop⟩ := dropWhile_of_stripList hs
  have hfront : (s ++ t).dropWhile isSpace = s ++ t := by
    rw [List.dropWhile_append, hdrop, if_neg (by simpa using hne)]
  have hback : s.reverse.dropWhile isSpace = s.reverse := List.reverse_eq_iff.mp hrdrop
  unfold stripList
  rw [hfront, List.reverse_append, List.dropWhile_append, hback]
  unfold List.rdropWhile
  split
  · rename_i hblank
    rw [List.isEmpty_iff.mp hblank]
    simp
  · simp

theorem rdropWhile_cons (c : Char) (t : List Char) :
    (c :: t).rdropWhile isSpace =
      if t.rdropWhile isSpace = [] then [c].rdropWhile isSpace else c :: t.rdropWhile isSpace := by
  unfold List.rdropWhile
  rw [List.reverse_cons, List.dropWhile_append]
  split
  · rename_i hblank
    rw [List.isEmpty_iff.mp hblank]
    rfl
  · rename_i hword
    rw [if_neg (by simpa [List.isEmpty_iff] using hword)]
    simp

theorem rdropWhile_cons_of_neg {c : Char} (hc : ¬ isSpace c = true) (t : List Char) :
    (c :: t).rdropWhile isSpace = c :: t.rdropWhile isSpace := by
  rw [rdropWhile_cons, List.rdropWhile_singleton, if_neg hc]
  split
  · rename_i hblank
    rw [hblank]
  · rfl

/-- Blanks in front and behind are stripped in either order. -/
theorem dropWhile_rdropWhile (t : List Char) :
    (t.rdropWhile isSpace).dropWhile isSpace = (t.dropWhile isSpace).rdropWhile isSpace := by
  induction t with
  | nil => rfl
  | cons c t ih =>
    by_cases hc : isSpace c = true
    · rw [rdropWhile_cons, List.dropWhile_cons_of_pos hc, ← ih]
      split
      · rename_i hblank
        rw [hblank, List.rdropWhile_singleton, if_pos hc]
      · rw [List.dropWhile_cons_of_pos hc]
    · rw [List.dropWhile_cons_of_neg hc, rdropWhile_cons_of_neg hc, List.dropWhile_cons_of_neg hc]

theorem stripList_rdropWhile (t : List Char) :
    stripList (t.rdropWhile isSpace) = stripList t := by
  show ((t.rdropWhile isSpace).dropWhile isSpace).rdropWhile isSpace =
    (t.dropWhile isSpace).rdropWhile isSpace
  rw [dropWhile_rdropWhile]
  exact List.rdropWhile_idempotent ..

theorem dropWhile_append_cons {c : Char} (hc : ¬ isSpace c = true) (s t : List Char) :
    (s ++ c :: t).dropWhile isSpace = s.dropWhile isSpace ++ c :: t := by
  rw [List.dropWhile_append]
  split
  · rename_i hblank
    rw [List.isEmpty_iff.mp hblank, List.dropWhile_cons_of_neg hc, List.nil_append]
  · rfl

/-- Blanks around a text with something else in it. -/
theorem stripList_append_cons {c : Char} (hc : ¬ isSpace c = true) (s t : List Char) :
    stripList (s ++ c :: t) = s.dropWhile isSpace ++ c :: t.rdropWhile isSpace := by
  unfold stripList
  rw [dropWhile_append_cons hc, List.reverse_append, List.reverse_cons, List.append_assoc,
    List.singleton_append, dropWhile_append_cons hc]
  simp [List.rdropWhile]

/-- A text without blanks. -/
theorem strip_of_forall {cs : List Char} (h : ∀ c ∈ cs, isSpace c = false) :
    strip (String.ofList cs) = String.ofList cs := by
  have hdrop : cs.dropWhile isSpace = cs :=
    List.dropWhile_eq_self_iff.mpr fun hlen => Bool.eq_false_iff.mp (h _ (List.getElem_mem hlen))
  have hrdrop : cs.rdropWhile isSpace = cs :=
    List.rdropWhile_eq_self_iff.mpr fun hne =>
      Bool.eq_false_iff.mp (h _ (List.getLast_mem hne))
  have hstrip : stripList cs = cs := by
    show (cs.dropWhile isSpace).rdropWhile isSpace = cs
    rw [hdrop, hrdrop]
  rw [strip, String.toList_ofList, hstrip]

/-- `s.strip(c)` for a single character. -/
def stripChar (c : Char) (cs : List Char) : List Char :=
  ((cs.dropWhile (· = c)).reverse.dropWhile (· = c)).reverse

theorem stripChar_of_ends {c : Char} {cs : List Char} (hhead : cs.head? ≠ some c)
    (hlast : cs.getLast? ≠ some c) : stripChar c cs = cs := by
  have hdrop : ∀ ds : List Char, ds.head? ≠ some c → ds.dropWhile (· = c) = ds := by
    intro ds hds
    cases ds with
    | nil => rfl
    | cons d ds => exact List.dropWhile_cons_of_neg (by simpa using hds)
  unfold stripChar
  rw [hdrop cs hhead, hdrop cs.reverse (by rwa [List.head?_reverse]), List.reverse_reverse]

/-- `s.split()[0]`, for a text with at least one word. -/
def firstWord (s : String) : String :=
  String.ofList ((s.toList.dropWhile isSpace).takeWhile fun c => !isSpace c)

/-- `s.replace(old, new)` for single characters. -/
def replaceChar (old new : Char) (s : String) : String :=
  String.ofList (s.toList.map fun c => if c = old then new else c)

/-! ## The library -/

/-- What is left to the language's library. -/
structure Runtime where
  /-- `s.lower()` -/
  lower : String → String
  /-- on ASCII texts, letter by letter -/
  lower_ascii : ∀ s, (∀ c ∈ s.toList, c.val < 0x80) →
    lower s = String.ofList (s.toList.map Char.toLower)
  /-- `str(v)` for a value that is not a text -/
  repr : Value → String
  /-- `float(s)` for a text, if it does not raise -/
  parseFloat : String → Option Double

namespace Runtime
variable (py : Runtime)

/-- `str(v)`. -/
def str : Value → String
  | .str s => s
  | v => py.repr v

/-- `float(v)`. -/
def float : Value → Except Exception Double
  | .none => .error .typeError
  | .bool b => .ok (.finite (if b then 1 else 0))
  | .int n => if (Value.int n).overflows then .error .overflowError else .ok (.finite n)
  | .float x => .ok x
  | .str s =>
    match py.parseFloat s with
    | some x => .ok x
    | none => .error .valueError
  | .list _ => .error .typeError
  | .dict _ => .error .typeError

/-- What `float` raises. -/
theorem float_cases (v : Value) :
    (∃ x, py.float v = .ok x) ∧ v.overflows = false ∨
      (py.float v = .error .typeError ∨ py.float v = .error .valueError) ∧ v.overflows = false ∨
      py.float v = .error .overflowError ∧ v.overflows = true := by
  cases v with
  | none => exact .inr (.inl ⟨.inl rfl, rfl⟩)
  | bool b => exact .inl ⟨⟨_, rfl⟩, rfl⟩
  | int n =>
    have hfloat : py.float (.int n) =
        if (Value.int n).overflows then .error .overflowError else .ok (.finite n) := rfl
    rw [hfloat]
    cases (Value.int n).overflows with
    | true => exact .inr (.inr ⟨rfl, rfl⟩)
    | false => exact .inl ⟨⟨_, rfl⟩, rfl⟩
  | float x => exact .inl ⟨⟨x, rfl⟩, rfl⟩
  | str s =>
    cases h : py.parseFloat s with
    | some x => exact .inl ⟨⟨x, by simp only [Runtime.float, h]⟩, rfl⟩
    | none => exact .inr (.inl ⟨.inr (by simp only [Runtime.float, h]), rfl⟩)
  | list vs => exact .inr (.inl ⟨.inl rfl, rfl⟩)
  | dict entries => exact .inr (.inl ⟨.inl rfl, rfl⟩)

/-- `lower` on a text of which it can be computed that it is ASCII. -/
theorem lower_of_all {s : String} (h : (s.toList.all fun c => c.val < 0x80) = true) :
    py.lower s = String.ofList (s.toList.map Char.toLower) :=
  py.lower_ascii s fun c hc => of_decide_eq_true (List.all_eq_true.mp h c hc)

/-- A library that knows ASCII only, and reads and writes no numbers. -/
def ascii : Runtime where
  lower s := String.ofList (s.toList.map Char.toLower)
  lower_ascii _ _ := rfl
  repr _ := ""
  parseFloat _ := none

end Runtime

/-! ## Texts from outside -/

/-- What `json.loads` raises: what it documents, or anything else (whole numbers of more
digits than the language reads, nesting deeper than its stack). -/
inductive LoadsError where
  | jsonDecodeError
  | raised (e : Exception)

/-- How texts are decoded and read. -/
structure Codec where
  /-- `b.decode("utf-8", errors="replace")`, which never raises -/
  decode : List (BitVec 8) → String
  /-- `json.loads(s)` -/
  loads : String → Except LoadsError Value

/-- A codec that knows ASCII only, and of JSON only whole numbers. -/
def Codec.digits : Codec where
  decode bytes := String.ofList (bytes.map fun b => Char.ofNat b.toNat)
  loads s :=
    if s.toList.all Char.isDigit ∧ s ≠ "" then
      .ok (.int (s.toList.foldl (fun n c => 10 * n + (c.toNat - '0'.toNat)) 0))
    else .error .jsonDecodeError

end Python
