import XInputSwitch.JsonTokens

/-! # JSON

`json.dumps` and `json.loads` on the values of `Python.Value`.  A `Layout` says which blanks stand
between the parts; `compact` and `indented` are the two in use.  The reader takes blanks wherever
they may stand, and of two equal keys the later one.

`parse` is `none` for a text that is not JSON, or that asks for half of a surrogate pair.  The limit
of the interpreter on nesting is left out.

`parse_write`: what was written is read back, for every layout.
-/
namespace Python.Json

/-! ## Values -/

/-- How JSON is laid out. -/
structure Layout where
  /-- the blanks before an item, at a depth -/
  item : Nat → List Char
  /-- the blanks before a closing bracket -/
  close : Nat → List Char
  /-- the blanks after a colon -/
  colon : List Char
  item_blank : ∀ depth, ∀ c ∈ item depth, isBlank c = true
  close_blank : ∀ depth, ∀ c ∈ close depth, isBlank c = true
  colon_blank : ∀ c ∈ colon, isBlank c = true

/-- `separators=(",", ":")`. -/
def Layout.compact : Layout := ⟨fun _ => [], fun _ => [], [], by simp, by simp, by simp⟩

/-- `indent=2`. -/
def Layout.indented : Layout where
  item depth := '\n' :: List.replicate (2 * depth) ' '
  close depth := '\n' :: List.replicate (2 * depth) ' '
  colon := [' ']
  item_blank depth c hc := by
    rcases List.mem_cons.mp hc with rfl | hc
    · rfl
    · rw [List.eq_of_mem_replicate hc]
      rfl
  close_blank depth c hc := by
    rcases List.mem_cons.mp hc with rfl | hc
    · rfl
    · rw [List.eq_of_mem_replicate hc]
      rfl
  colon_blank := List.all_eq_true.mp (by decide)

/-- The numbers of a library that JSON relies on. -/
structure Numbers extends Numerals where
  repr_int : ∀ n, repr (.int n) = String.ofList (Numerals.writeInt n)
  /-- a float has a point or an exponent -/
  repr_finite : ∀ x, IsNumber true (repr (.float (.finite x))).toList

section Write
variable (nums : Numbers) (layout : Layout)

def writeFloat : Double → List Char
  | .nan => ['N', 'a', 'N']
  | .posInf => ['I', 'n', 'f', 'i', 'n', 'i', 't', 'y']
  | .negInf => ['-', 'I', 'n', 'f', 'i', 'n', 'i', 't', 'y']
  | .finite x => (nums.repr (.float (.finite x))).toList

/-- A text with its quotes. -/
def quoted (s : String) : List Char := '"' :: writeString s.toList

mutual

/-- `json.dumps`, at a depth. -/
def write (depth : Nat) : Value → List Char
  | .none => ['n', 'u', 'l', 'l']
  | .bool true => ['t', 'r', 'u', 'e']
  | .bool false => ['f', 'a', 'l', 's', 'e']
  | .int n => (nums.repr (.int n)).toList
  | .float x => writeFloat nums x
  | .str s => quoted s
  | .list [] => ['[', ']']
  | .list (x :: xs) =>
    '[' :: (layout.item (depth + 1) ++ write (depth + 1) x ++ writeItems (depth + 1) xs ++
      layout.close depth ++ [']'])
  | .dict [] => ['\x7b', '\x7d']
  | .dict ((key, x) :: entries) =>
    '\x7b' :: (layout.item (depth + 1) ++ quoted key ++ ':' :: layout.colon ++
      write (depth + 1) x ++ writeEntries (depth + 1) entries ++ layout.close depth ++ ['\x7d'])

/-- The items after the first. -/
def writeItems (depth : Nat) : List Value → List Char
  | [] => []
  | x :: xs => ',' :: (layout.item depth ++ write depth x ++ writeItems depth xs)

/-- The entries after the first. -/
def writeEntries (depth : Nat) : List (String × Value) → List Char
  | [] => []
  | (key, x) :: entries =>
    ',' :: (layout.item depth ++ quoted key ++ ':' :: layout.colon ++ write depth x ++
      writeEntries depth entries)

end

end Write

def skip (text : List Char) : List Char := text.dropWhile isBlank

def keywords : List (List Char × Value) :=
  [(['n', 'u', 'l', 'l'], .none), (['t', 'r', 'u', 'e'], .bool true),
   (['f', 'a', 'l', 's', 'e'], .bool false), (['N', 'a', 'N'], .float .nan),
   (['I', 'n', 'f', 'i', 'n', 'i', 't', 'y'], .float .posInf),
   (['-', 'I', 'n', 'f', 'i', 'n', 'i', 't', 'y'], .float .negInf)]

section Read
variable (nums : Numerals)

/-- A keyword or a number. -/
def readScalar (text : List Char) : Option (Value × List Char) :=
  match keywords.find? fun keyword => keyword.1.isPrefixOf text with
  | some (keyword, value) => some (value, text.drop keyword.length)
  | none =>
    match scanNumber text with
    | none => none
    | some (number, isFloat, rest) =>
      if isFloat then
        (nums.parseFloat (String.ofList number)).map fun x => (.float x, rest)
      else (nums.parseInt (String.ofList number)).map fun n => (.int n, rest)

/-- A dictionary takes the place of a key from its first entry and the value from its last. -/
def setKey : List (String × Value) → String × Value → List (String × Value)
  | [], entry => [entry]
  | (key, value) :: entries, entry =>
    if key = entry.1 then entry :: entries else (key, value) :: setKey entries entry

def dictOf (entries : List (String × Value)) : List (String × Value) := entries.foldl setKey []

mutual

/-- A value, nested at most `n` deep and long. -/
def readValue : Nat → List Char → Option (Value × List Char)
  | 0, _ => none
  | n + 1, text =>
    match text with
    | '"' :: rest =>
      (readString rest.length rest).map fun read => (.str (String.ofList read.1), read.2)
    | '[' :: rest =>
      match skip rest with
      | ']' :: rest => some (.list [], rest)
      | rest => (readItems n rest).map fun read => (.list read.1, read.2)
    | '\x7b' :: rest =>
      match skip rest with
      | '\x7d' :: rest => some (.dict [], rest)
      | rest => (readEntries n rest).map fun read => (.dict (dictOf read.1), read.2)
    | text => readScalar nums text

/-- Items, up to the closing bracket. -/
def readItems : Nat → List Char → Option (List Value × List Char)
  | 0, _ => none
  | n + 1, text =>
    match readValue n text with
    | none => none
    | some (x, rest) =>
      match skip rest with
      | ']' :: rest => some ([x], rest)
      | ',' :: rest => (readItems n (skip rest)).map fun read => (x :: read.1, read.2)
      | _ => none

/-- Entries, up to the closing brace. -/
def readEntries : Nat → List Char → Option (List (String × Value) × List Char)
  | 0, _ => none
  | n + 1, '"' :: text =>
    match readString text.length text with
    | none => none
    | some (key, rest) =>
      match skip rest with
      | ':' :: rest =>
        match readValue n (skip rest) with
        | none => none
        | some (x, rest) =>
          match skip rest with
          | '\x7d' :: rest => some ([(String.ofList key, x)], rest)
          | ',' :: rest =>
            (readEntries n (skip rest)).map fun read => ((String.ofList key, x) :: read.1, read.2)
          | _ => none
      | _ => none
  | _ + 1, _ => none

end

/-- `json.loads`. -/
def parse (text : List Char) : Option Value :=
  match readValue nums (text.length + 1) (skip text) with
  | none => none
  | some (value, rest) => if skip rest = [] then some value else none

end Read

/-! ## What is written is read -/

theorem skip_append {blanks : List Char} (hblanks : ∀ c ∈ blanks, isBlank c = true) {c : Char}
    (hc : isBlank c = false) (rest : List Char) :
    skip (blanks ++ c :: rest) = c :: rest := by
  rw [skip, List.dropWhile_append_of_pos hblanks, List.dropWhile_cons_of_neg (by simp [hc])]

theorem skip_cons {c : Char} (hc : isBlank c = false) (rest : List Char) :
    skip (c :: rest) = c :: rest :=
  List.dropWhile_cons_of_neg (by simp [hc])

theorem length_le_writeString (s : List Char) : s.length ≤ (writeString s).length := by
  induction s with
  | nil => exact Nat.zero_le _
  | cons c s ih =>
    obtain ⟨head, rest, hescape, -⟩ := escapeChar_head c
    have htext : writeString (c :: s) = escapeChar c ++ writeString s := by simp [writeString]
    rw [htext, hescape, List.length_append, List.length_cons, List.length_cons]
    omega

theorem readString_quoted (s : String) (rest : List Char) :
    readString (writeString s.toList ++ rest).length (writeString s.toList ++ rest) =
      some (s.toList, rest) := by
  refine readString_writeString s.toList rest ?_
  rw [List.length_append]
  exact (length_le_writeString _).trans (Nat.le_add_right _ _)

section Scalar
variable (nums : Numbers)

theorem readScalar_keyword {keyword : List Char} {value : Value}
    (h : (keyword, value) ∈ keywords) (rest : List Char) :
    readScalar nums.toNumerals (keyword ++ rest) = some (value, rest) := by
  simp only [keywords, List.mem_cons, Prod.mk.injEq, List.not_mem_nil, or_false] at h
  rcases h with ⟨rfl, rfl⟩ | ⟨rfl, rfl⟩ | ⟨rfl, rfl⟩ | ⟨rfl, rfl⟩ | ⟨rfl, rfl⟩ | ⟨rfl, rfl⟩ <;> rfl

/-- No keyword begins like a number. -/
theorem find_keyword {text : List Char} {isFloat : Bool} (h : IsNumber isFloat text)
    (rest : List Char) :
    keywords.find? (fun keyword => keyword.1.isPrefixOf (text ++ rest)) = none := by
  have hdigit : ∀ c : Char, c.isDigit = true →
      c ≠ 'n' ∧ c ≠ 't' ∧ c ≠ 'f' ∧ c ≠ 'N' ∧ c ≠ 'I' ∧ c ≠ '-' := by
    intro c hc
    refine ⟨?_, ?_, ?_, ?_, ?_, ?_⟩ <;>
    · rintro rfl
      revert hc
      decide
  rcases h.head with ⟨c, tail, rfl, hc⟩ | ⟨c, tail, rfl, hc⟩
  · obtain ⟨hn, ht, hf, hN, hI, hminus⟩ := hdigit c hc
    simp [keywords, List.isPrefixOf, hn.symm, ht.symm, hf.symm, hN.symm, hI.symm, hminus.symm]
  · obtain ⟨-, -, -, -, hI, -⟩ := hdigit c hc
    simp [keywords, List.isPrefixOf, hI.symm]

theorem readScalar_number {text rest : List Char} {isFloat : Bool} (h : IsNumber isFloat text)
    (hrest : Ends rest) :
    readScalar nums.toNumerals (text ++ rest) =
      if isFloat then (nums.parseFloat (String.ofList text)).map fun x => (.float x, rest)
      else (nums.parseInt (String.ofList text)).map fun n => (.int n, rest) := by
  rw [readScalar, find_keyword h, scanNumber_append hrest, h]
  rfl

theorem readScalar_int {n : Int} (hn : Legible n) {rest : List Char} (hrest : Ends rest) :
    readScalar nums.toNumerals ((nums.repr (.int n)).toList ++ rest) = some (.int n, rest) := by
  have hnumber : IsNumber false (nums.repr (.int n)).toList := by
    rw [nums.repr_int, String.toList_ofList]
    exact isNumber_writeInt n
  rw [readScalar_number nums hnumber hrest, String.ofList_toList, nums.parseInt_repr n hn]
  rfl

theorem readScalar_float (x : Double) {rest : List Char} (hrest : Ends rest) :
    readScalar nums.toNumerals (writeFloat nums x ++ rest) = some (.float x, rest) := by
  cases x with
  | nan => exact readScalar_keyword nums (by simp [keywords, writeFloat]) rest
  | posInf => exact readScalar_keyword nums (by simp [keywords, writeFloat]) rest
  | negInf => exact readScalar_keyword nums (by simp [keywords, writeFloat]) rest
  | finite x =>
    rw [writeFloat, readScalar_number nums (nums.repr_finite x) hrest, String.ofList_toList,
      nums.parseFloat_repr]
    rfl

end Scalar

mutual

/-- What a program can write: no dictionary in the value has two equal keys, and no number too
many digits. -/
def Dumpable : Value → Prop
  | .int n => Legible n
  | .list xs => DumpableItems xs
  | .dict entries => (entries.map Prod.fst).Nodup ∧ DumpableEntries entries
  | _ => True

def DumpableItems : List Value → Prop
  | [] => True
  | x :: xs => Dumpable x ∧ DumpableItems xs

def DumpableEntries : List (String × Value) → Prop
  | [] => True
  | (_, x) :: entries => Dumpable x ∧ DumpableEntries entries

end

/-- The value is not a text, a list or a dictionary. -/
def isScalar : Value → Bool
  | .none | .bool _ | .int _ | .float _ => true
  | .str _ | .list _ | .dict _ => false

/-- Blanks, quotes and brackets. -/
def isMark (c : Char) : Bool := isBlank c || c ∈ ['"', '[', ']', '\x7b', '\x7d']

theorem IsNumber.cons {isFloat : Bool} {text : List Char} (h : IsNumber isFloat text) :
    ∃ c rest, text = c :: rest ∧ isMark c = false := by
  have hdigit : ∀ c : Char, c.isDigit = true → isMark c = false := by
    intro c hc
    rw [Bool.eq_false_iff]
    intro hmark
    simp only [isMark, isBlank, Bool.or_eq_true, decide_eq_true_eq, List.mem_cons,
      List.not_mem_nil, or_false] at hmark
    rcases hmark with (((rfl | rfl) | rfl) | rfl) | rfl | rfl | rfl | rfl | rfl <;>
    · revert hc
      decide
  rcases h.head with ⟨c, rest, rfl, hc⟩ | ⟨c, rest, rfl, -⟩
  · exact ⟨c, rest, rfl, hdigit c hc⟩
  · exact ⟨'-', c :: rest, rfl, by decide⟩

section Value
variable (nums : Numbers) (layout : Layout)

theorem scalar_head (depth : Nat) {v : Value} (hv : isScalar v = true) :
    ∃ c rest, write nums layout depth v = c :: rest ∧ isMark c = false := by
  cases v with
  | none => exact ⟨_, _, by rw [write], by decide⟩
  | bool b => cases b <;> exact ⟨_, _, by rw [write], by decide⟩
  | int n =>
    rw [write, nums.repr_int, String.toList_ofList]
    exact (isNumber_writeInt n).cons
  | float x =>
    rw [write]
    cases x with
    | finite x => exact (nums.repr_finite x).cons
    | _ => exact ⟨_, _, rfl, by decide⟩
  | str | list | dict => cases hv

/-- A value begins neither with a blank nor with a closing bracket. -/
theorem write_head (depth : Nat) (v : Value) :
    ∃ c rest, write nums layout depth v = c :: rest ∧ isBlank c = false ∧ c ≠ ']' := by
  cases hv : isScalar v with
  | true =>
    obtain ⟨c, rest, hwrite, hmark⟩ := scalar_head nums layout depth hv
    refine ⟨c, rest, hwrite, (Bool.or_eq_false_iff.mp hmark).1, ?_⟩
    rintro rfl
    cases hmark
  | false =>
    cases v with
    | str s => exact ⟨'"', _, by rw [write, quoted], by decide, by decide⟩
    | list xs => cases xs <;> exact ⟨'[', _, by rw [write], by decide, by decide⟩
    | dict es =>
      cases es with
      | nil => exact ⟨_, _, by rw [write], by decide, by decide⟩
      | cons e es =>
        obtain ⟨key, x⟩ := e
        exact ⟨_, _, by rw [write], by decide, by decide⟩
    | none | bool | int | float => cases hv

theorem readValue_scalar {c : Char} (hc : isMark c = false) (n : Nat) (rest : List Char) :
    readValue nums.toNumerals (n + 1) (c :: rest) = readScalar nums.toNumerals (c :: rest) := by
  unfold readValue
  split
  · rename_i heq
    obtain ⟨rfl, -⟩ := List.cons.inj heq
    cases hc
  · rename_i heq
    obtain ⟨rfl, -⟩ := List.cons.inj heq
    cases hc
  · rename_i heq
    obtain ⟨rfl, -⟩ := List.cons.inj heq
    cases hc
  · rfl

theorem readValue_writeScalar {v : Value} (hv : isScalar v = true) (hdumpable : Dumpable v)
    (depth n : Nat) {rest : List Char} (hrest : Ends rest) :
    readValue nums.toNumerals (n + 1) (write nums layout depth v ++ rest) = some (v, rest) := by
  obtain ⟨c, tail, hwrite, hmark⟩ := scalar_head nums layout depth hv
  rw [hwrite, List.cons_append, readValue_scalar nums hmark, ← List.cons_append, ← hwrite]
  cases v with
  | none =>
    rw [write]
    exact readScalar_keyword nums (by simp [keywords]) rest
  | bool b =>
    cases b <;> rw [write] <;> exact readScalar_keyword nums (by simp [keywords]) rest
  | int n =>
    rw [Dumpable] at hdumpable
    rw [write]
    exact readScalar_int nums hdumpable hrest
  | float x =>
    rw [write]
    exact readScalar_float nums x hrest
  | str | list | dict => cases hv

theorem readValue_list {text rest : List Char} {c : Char} (hskip : skip text = c :: rest)
    (hc : c ≠ ']') (n : Nat) :
    readValue nums.toNumerals (n + 1) ('[' :: text) =
      (readItems nums.toNumerals n (c :: rest)).map fun read => (.list read.1, read.2) := by
  simp only [readValue, hskip]
  split
  · rename_i heq
    exact absurd (List.cons.inj heq).1 hc
  · rfl

theorem readValue_dict {text rest : List Char} {c : Char} (hskip : skip text = c :: rest)
    (hc : c ≠ '\x7d') (n : Nat) :
    readValue nums.toNumerals (n + 1) ('\x7b' :: text) =
      (readEntries nums.toNumerals n (c :: rest)).map fun read =>
        (.dict (dictOf read.1), read.2) := by
  simp only [readValue, hskip]
  split
  · rename_i heq
    exact absurd (List.cons.inj heq).1 hc
  · rfl

end Value

/-! ### Keys -/

theorem setKey_of_not_mem {entries : List (String × Value)} {entry : String × Value}
    (h : entry.1 ∉ entries.map Prod.fst) : setKey entries entry = entries ++ [entry] := by
  induction entries with
  | nil => rfl
  | cons e entries ih =>
    rw [List.map_cons, List.mem_cons, not_or] at h
    rw [setKey, if_neg (Ne.symm h.1), ih h.2, List.cons_append]

theorem foldl_setKey {before entries : List (String × Value)}
    (h : ((before ++ entries).map Prod.fst).Nodup) :
    entries.foldl setKey before = before ++ entries := by
  induction entries generalizing before with
  | nil => simp
  | cons e entries ih =>
    have hnot : e.1 ∉ before.map Prod.fst := by
      rw [List.map_append, List.map_cons, List.nodup_append] at h
      exact fun hmem => h.2.2 e.1 hmem e.1 List.mem_cons_self rfl
    rw [List.foldl_cons, setKey_of_not_mem hnot, ih (by simpa using h), List.append_assoc,
      List.singleton_append]

theorem dictOf_of_nodup {entries : List (String × Value)} (h : (entries.map Prod.fst).Nodup) :
    dictOf entries = entries :=
  foldl_setKey (by simpa using h)

theorem lookup_setKey (entries : List (String × Value)) (entry : String × Value) (key : String) :
    (setKey entries entry).lookup key =
      if key = entry.1 then some entry.2 else entries.lookup key := by
  obtain ⟨name, value⟩ := entry
  induction entries with
  | nil =>
    rw [setKey, List.lookup_cons]
    by_cases hkey : key = name
    · simp [hkey]
    · simp [beq_false_of_ne hkey, hkey]
  | cons e entries ih =>
    obtain ⟨first, old⟩ := e
    rw [setKey]
    split
    · rename_i hfirst
      obtain rfl : first = name := hfirst
      rw [List.lookup_cons, List.lookup_cons]
      by_cases hkey : key = first
      · simp [hkey]
      · simp [beq_false_of_ne hkey, hkey]
    · rename_i hfirst
      rw [List.lookup_cons, List.lookup_cons, ih]
      by_cases hkey : key = first
      · subst hkey
        simp [hfirst]
      · simp [beq_false_of_ne hkey]

/-- A key that is there stays where it is. -/
theorem setKey_append {before after : List (String × Value)} {entry old : String × Value}
    (h : entry.1 ∉ before.map Prod.fst) (hold : old.1 = entry.1) :
    setKey (before ++ old :: after) entry = before ++ entry :: after := by
  induction before with
  | nil => rw [List.nil_append, setKey, if_pos hold, List.nil_append]
  | cons e before ih =>
    rw [List.map_cons, List.mem_cons, not_or] at h
    rw [List.cons_append, setKey, if_neg (Ne.symm h.1), ih h.2, List.cons_append]

theorem keys_setKey {entries : List (String × Value)} {entry : String × Value}
    (h : entry.1 ∈ entries.map Prod.fst) :
    (setKey entries entry).map Prod.fst = entries.map Prod.fst := by
  induction entries with
  | nil => cases h
  | cons e entries ih =>
    rw [setKey]
    split
    · rename_i he
      rw [List.map_cons, List.map_cons, he]
    · rename_i he
      have hmem : entry.1 ∈ entries.map Prod.fst :=
        (List.mem_cons.mp h).resolve_left fun heq => he heq.symm
      rw [List.map_cons, List.map_cons, ih hmem]

theorem eq_of_keys {entries entries' : List (String × Value)}
    (hkeys : entries.map Prod.fst = entries'.map Prod.fst) (hnodup : (entries'.map Prod.fst).Nodup)
    (hmem : ∀ e ∈ entries, e ∈ entries') : entries = entries' := by
  induction entries generalizing entries' with
  | nil => exact (List.map_eq_nil_iff.mp hkeys.symm).symm
  | cons e entries ih =>
    obtain ⟨e', entries', rfl, hkey, hrest⟩ := List.map_eq_cons_iff.mp hkeys.symm
    obtain ⟨hnot, hnodup⟩ := List.nodup_cons.mp hnodup
    obtain ⟨he, hentries⟩ := List.forall_mem_cons.mp hmem
    have hhead : e = e' := (List.mem_cons.mp he).resolve_right fun htail =>
      hnot (hkey ▸ List.mem_map_of_mem htail)
    refine congrArg₂ List.cons hhead (ih hrest.symm hnodup fun x hx => ?_)
    refine (List.mem_cons.mp (hentries x hx)).resolve_left fun hx' => hnot ?_
    rw [hrest, ← hx']
    exact List.mem_map_of_mem hx

/-- `update` by a dictionary with the same keys in the same order. -/
theorem foldl_setKey_of_keys {before base entries : List (String × Value)}
    (hkeys : base.map Prod.fst = entries.map Prod.fst)
    (hnodup : ((before ++ entries).map Prod.fst).Nodup) :
    entries.foldl setKey (before ++ base) = before ++ entries := by
  induction entries generalizing before base with
  | nil => rw [List.map_eq_nil_iff.mp hkeys, List.foldl_nil]
  | cons e entries ih =>
    obtain ⟨old, base, rfl, hold, hbase⟩ := List.map_eq_cons_iff.mp hkeys
    have hnot : e.1 ∉ before.map Prod.fst := by
      rw [List.map_append, List.map_cons, List.nodup_append] at hnodup
      exact fun hmem => hnodup.2.2 e.1 hmem e.1 List.mem_cons_self rfl
    have hnext : entries.foldl setKey ((before ++ [e]) ++ base) = (before ++ [e]) ++ entries :=
      ih hbase (by simpa using hnodup)
    rw [List.append_assoc, List.append_assoc, List.singleton_append, List.singleton_append] at hnext
    rw [List.foldl_cons, setKey_append hnot hold, hnext]

theorem dumpableEntries_of_forall {entries : List (String × Value)}
    (h : ∀ e ∈ entries, Dumpable e.2) : DumpableEntries entries := by
  induction entries with
  | nil => trivial
  | cons e entries ih =>
    obtain ⟨he, hentries⟩ := List.forall_mem_cons.mp h
    exact ⟨he, ih hentries⟩

mutual

/-- How deep and long a value is nested. -/
def size : Value → Nat
  | .list xs => 1 + sizeItems xs
  | .dict entries => 1 + sizeEntries entries
  | _ => 1

def sizeItems : List Value → Nat
  | [] => 0
  | x :: xs => 1 + size x + sizeItems xs

def sizeEntries : List (String × Value) → Nat
  | [] => 0
  | (_, x) :: entries => 1 + size x + sizeEntries entries

end

/-! ### The round trip -/

section RoundTrip
variable (nums : Numbers) (layout : Layout)

theorem ends_cons {c : Char} (hc : isDelimiter c = true) (rest : List Char) : Ends (c :: rest) := by
  intro d hd
  obtain rfl := Option.some.inj hd
  exact hc

theorem ends_of_blank {blanks : List Char} (hblanks : ∀ c ∈ blanks, isBlank c = true) {c : Char}
    (hc : isDelimiter c = true) (rest : List Char) : Ends (blanks ++ c :: rest) := by
  intro d hd
  cases blanks with
  | nil => exact ends_cons hc rest d hd
  | cons b blanks =>
    obtain rfl := Option.some.inj hd
    simp [isDelimiter, hblanks b List.mem_cons_self]

/-- After the first item of a list. -/
theorem ends_items (depth : Nat) (xs : List Value) (rest : List Char) :
    Ends (writeItems nums layout (depth + 1) xs ++ (layout.close depth ++ ']' :: rest)) := by
  cases xs with
  | nil => exact ends_of_blank (layout.close_blank depth) (by decide) rest
  | cons x xs => exact ends_cons (by decide) _

theorem ends_entries (depth : Nat) (entries : List (String × Value)) (rest : List Char) :
    Ends (writeEntries nums layout (depth + 1) entries ++
      (layout.close depth ++ '\x7d' :: rest)) := by
  cases entries with
  | nil => exact ends_of_blank (layout.close_blank depth) (by decide) rest
  | cons e entries => exact ends_cons (by decide) _

theorem skip_item (depth : Nat) (x : Value) (rest : List Char) :
    skip (layout.item depth ++ (write nums layout depth x ++ rest)) =
      write nums layout depth x ++ rest := by
  obtain ⟨c, tail, hwrite, hblank, -⟩ := write_head nums layout depth x
  rw [hwrite, List.cons_append]
  exact skip_append (layout.item_blank depth) hblank _

theorem skip_colon (depth : Nat) (x : Value) (rest : List Char) :
    skip (layout.colon ++ (write nums layout depth x ++ rest)) =
      write nums layout depth x ++ rest := by
  obtain ⟨c, tail, hwrite, hblank, -⟩ := write_head nums layout depth x
  rw [hwrite, List.cons_append]
  exact skip_append layout.colon_blank hblank _

theorem skip_key (depth : Nat) (key : String) (rest : List Char) :
    skip (layout.item depth ++ (quoted key ++ rest)) = quoted key ++ rest :=
  skip_append (layout.item_blank depth) (by decide) _

/-- A key and its value, up to what follows the value. -/
theorem readEntries_key {key : String} {x : Value} {n depth : Nat} {rest : List Char}
    (hx : readValue nums.toNumerals n (write nums layout depth x ++ rest) = some (x, rest)) :
    readEntries nums.toNumerals (n + 1)
        (quoted key ++ ':' :: (layout.colon ++ (write nums layout depth x ++ rest))) =
      match skip rest with
      | '\x7d' :: rest => some ([(key, x)], rest)
      | ',' :: rest =>
        (readEntries nums.toNumerals n (skip rest)).map fun read => ((key, x) :: read.1, read.2)
      | _ => none := by
  rw [quoted, List.cons_append, readEntries, readString_quoted]
  simp only [skip_cons (show isBlank ':' = false by decide), skip_colon, hx, String.ofList_toList]

mutual

theorem readValue_write : ∀ (v : Value) (depth n : Nat) (rest : List Char), Dumpable v →
    size v ≤ n → Ends rest →
    readValue nums.toNumerals n (write nums layout depth v ++ rest) = some (v, rest)
  | v, depth, 0, rest, _, hsize, _ => by
    cases v <;> simp [size] at hsize
  | .none, depth, n + 1, _, h, _, hrest => readValue_writeScalar nums layout rfl h depth n hrest
  | .bool _, depth, n + 1, _, h, _, hrest => readValue_writeScalar nums layout rfl h depth n hrest
  | .int _, depth, n + 1, _, h, _, hrest => readValue_writeScalar nums layout rfl h depth n hrest
  | .float _, depth, n + 1, _, h, _, hrest => readValue_writeScalar nums layout rfl h depth n hrest
  | .str s, depth, n + 1, rest, _, _, _ => by
    rw [write, quoted, List.cons_append, readValue]
    simp only [readString_quoted, Option.map_some, String.ofList_toList]
  | .list [], depth, n + 1, rest, _, _, _ => by
    rw [write]
    rfl
  | .list (x :: xs), depth, n + 1, rest, hdumpable, hsize, _ => by
    rw [Dumpable, DumpableItems] at hdumpable
    rw [size, sizeItems] at hsize
    obtain ⟨n, rfl⟩ : ∃ m, n = m + 1 := ⟨n - 1, by omega⟩
    have hitems := readItems_write xs x depth n rest hdumpable.2 (by omega)
      fun rest hrest => readValue_write x (depth + 1) n rest hdumpable.1 (by omega) hrest
    have hskip := skip_item nums layout (depth + 1) x
      (writeItems nums layout (depth + 1) xs ++ (layout.close depth ++ ']' :: rest))
    obtain ⟨c, tail, hwrite, -, hc⟩ := write_head nums layout (depth + 1) x
    simp only [write, List.cons_append, List.append_assoc, List.nil_append]
    rw [hwrite, List.cons_append] at hskip hitems
    rw [hwrite, List.cons_append, readValue_list nums hskip hc, hitems]
    rfl
  | .dict [], depth, n + 1, rest, _, _, _ => by
    rw [write]
    rfl
  | .dict ((key, x) :: entries), depth, n + 1, rest, hdumpable, hsize, _ => by
    rw [Dumpable, DumpableEntries] at hdumpable
    rw [size, sizeEntries] at hsize
    obtain ⟨n, rfl⟩ : ∃ m, n = m + 1 := ⟨n - 1, by omega⟩
    have hentries := readEntries_write entries key x depth n rest hdumpable.2.2 (by omega)
      fun rest hrest => readValue_write x (depth + 1) n rest hdumpable.2.1 (by omega) hrest
    have hskip := skip_key layout (depth + 1) key (':' :: (layout.colon ++
      (write nums layout (depth + 1) x ++ (writeEntries nums layout (depth + 1) entries ++
        (layout.close depth ++ '\x7d' :: rest)))))
    simp only [write, List.cons_append, List.append_assoc, List.nil_append]
    rw [quoted, List.cons_append] at hskip hentries
    rw [quoted, List.cons_append, readValue_dict nums hskip (by decide), hentries, Option.map_some,
      dictOf_of_nodup hdumpable.1]

theorem readItems_write : ∀ (xs : List Value) (x : Value) (depth n : Nat) (rest : List Char),
    DumpableItems xs → sizeItems xs ≤ n →
    (∀ rest, Ends rest →
      readValue nums.toNumerals n (write nums layout (depth + 1) x ++ rest) = some (x, rest)) →
    readItems nums.toNumerals (n + 1) (write nums layout (depth + 1) x ++
      (writeItems nums layout (depth + 1) xs ++ (layout.close depth ++ ']' :: rest))) =
        some (x :: xs, rest)
  | [], x, depth, n, rest, _, _, hx => by
    rw [readItems, hx _ (ends_items nums layout depth [] rest)]
    simp only [writeItems, List.nil_append,
      skip_append (layout.close_blank depth) (show isBlank ']' = false by decide)]
  | y :: ys, x, depth, 0, rest, _, hsize, _ => by
    simp [sizeItems] at hsize
  | y :: ys, x, depth, n + 1, rest, hdumpable, hsize, hx => by
    rw [DumpableItems] at hdumpable
    rw [sizeItems] at hsize
    have hy := readItems_write ys y depth n rest hdumpable.2 (by omega)
      fun rest hrest => readValue_write y (depth + 1) n rest hdumpable.1 (by omega) hrest
    rw [readItems, hx _ (ends_items nums layout depth (y :: ys) rest)]
    simp only [writeItems, List.cons_append, skip_cons (show isBlank ',' = false by decide),
      List.append_assoc, skip_item, hy, Option.map_some]

theorem readEntries_write : ∀ (entries : List (String × Value)) (key : String) (x : Value)
    (depth n : Nat) (rest : List Char), DumpableEntries entries → sizeEntries entries ≤ n →
    (∀ rest, Ends rest →
      readValue nums.toNumerals n (write nums layout (depth + 1) x ++ rest) = some (x, rest)) →
    readEntries nums.toNumerals (n + 1) (quoted key ++ ':' :: (layout.colon ++
      (write nums layout (depth + 1) x ++ (writeEntries nums layout (depth + 1) entries ++
        (layout.close depth ++ '\x7d' :: rest))))) = some ((key, x) :: entries, rest)
  | [], key, x, depth, n, rest, _, _, hx => by
    rw [readEntries_key nums layout (hx _ (ends_entries nums layout depth [] rest))]
    simp only [writeEntries, List.nil_append,
      skip_append (layout.close_blank depth) (show isBlank '\x7d' = false by decide)]
  | e :: entries, key, x, depth, 0, rest, _, hsize, _ => by
    simp [sizeEntries] at hsize
  | (key', y) :: entries, key, x, depth, n + 1, rest, hdumpable, hsize, hx => by
    rw [DumpableEntries] at hdumpable
    rw [sizeEntries] at hsize
    have hy := readEntries_write entries key' y depth n rest hdumpable.2 (by omega)
      fun rest hrest => readValue_write y (depth + 1) n rest hdumpable.1 (by omega) hrest
    rw [readEntries_key nums layout (hx _ (ends_entries nums layout depth _ rest))]
    simp only [writeEntries, List.cons_append, skip_cons (show isBlank ',' = false by decide),
      List.append_assoc, skip_key, hy, Option.map_some]

end

mutual

theorem size_le_length : ∀ (v : Value) (depth : Nat),
    size v ≤ (write nums layout depth v).length
  | .list [], depth => by simp [size, sizeItems, write]
  | .list (x :: xs), depth => by
    have hx := size_le_length x (depth + 1)
    have hxs := sizeItems_le_length xs (depth + 1)
    simp only [size, sizeItems, write, List.length_cons, List.length_append, List.length_nil]
    omega
  | .dict [], depth => by simp [size, sizeEntries, write]
  | .dict ((key, x) :: entries), depth => by
    have hx := size_le_length x (depth + 1)
    have hentries := sizeEntries_le_length entries (depth + 1)
    simp only [size, sizeEntries, write, List.length_cons, List.length_append, List.length_nil]
    omega
  | .none, depth | .bool _, depth | .int _, depth | .float _, depth | .str _, depth => by
    obtain ⟨c, rest, hwrite, -⟩ := write_head nums layout depth _
    rw [hwrite, size, List.length_cons]
    · exact Nat.le_add_left _ _
    · exact nofun
    · exact nofun

theorem sizeItems_le_length : ∀ (xs : List Value) (depth : Nat),
    sizeItems xs ≤ (writeItems nums layout depth xs).length
  | [], depth => Nat.zero_le _
  | x :: xs, depth => by
    have hx := size_le_length x depth
    have hxs := sizeItems_le_length xs depth
    simp only [sizeItems, writeItems, List.length_cons, List.length_append]
    omega

theorem sizeEntries_le_length : ∀ (entries : List (String × Value)) (depth : Nat),
    sizeEntries entries ≤ (writeEntries nums layout depth entries).length
  | [], depth => Nat.zero_le _
  | (key, x) :: entries, depth => by
    have hx := size_le_length x depth
    have hentries := sizeEntries_le_length entries depth
    simp only [sizeEntries, writeEntries, List.length_cons, List.length_append]
    omega

end

/-- **What was written is read back**, also with blanks after it. -/
theorem parse_write {v : Value} (hv : Dumpable v) {blanks : List Char}
    (hblanks : ∀ c ∈ blanks, isBlank c = true) :
    parse nums.toNumerals (write nums layout 0 v ++ blanks) = some v := by
  have hends : Ends blanks := by
    intro c hc
    simp [isDelimiter, hblanks c (List.mem_of_mem_head? hc)]
  obtain ⟨c, rest, hwrite, hblank, -⟩ := write_head nums layout 0 v
  have hskip : skip (write nums layout 0 v ++ blanks) = write nums layout 0 v ++ blanks := by
    rw [hwrite, List.cons_append, skip_cons hblank]
  have hsize : size v ≤ (write nums layout 0 v ++ blanks).length + 1 := by
    have hlength := size_le_length nums layout v 0
    rw [List.length_append]
    omega
  rw [parse, hskip, readValue_write nums layout v 0 _ blanks hv hsize hends]
  exact if_pos (List.dropWhile_eq_nil_iff.mpr hblanks)

end RoundTrip

/-! ## Which characters are written -/

section Printable
variable (nums : Numbers)

theorem isPrintable_quoted (s : String) : ∀ c ∈ quoted s, isPrintable c = true :=
  List.forall_mem_cons.mpr ⟨by decide, isPrintable_writeString s.toList⟩

theorem isPrintable_writeFloat (x : Double) : ∀ c ∈ writeFloat nums x, isPrintable c = true := by
  cases x with
  | finite x => exact (nums.repr_finite x).isPrintable
  | nan | posInf | negInf =>
    rw [writeFloat]
    exact List.all_eq_true.mp (by decide)

/-- The characters allowed are printable ASCII and the blanks of the layout. -/
structure Layout.Allows (layout : Layout) (P : Char → Prop) : Prop where
  printable : ∀ c, isPrintable c = true → P c
  item : ∀ depth, ∀ c ∈ layout.item depth, P c
  close : ∀ depth, ∀ c ∈ layout.close depth, P c
  colon : ∀ c ∈ layout.colon, P c

section Layout
variable {layout : Layout} {P : Char → Prop} (hP : layout.Allows P)
include hP

mutual

theorem forall_write : ∀ (v : Value) (depth : Nat), ∀ c ∈ write nums layout depth v, P c
  | .none, _ => by
    rw [write]
    exact fun c hc => hP.printable c (List.all_eq_true.mp (by decide) c hc)
  | .bool b, _ => by
    cases b <;> rw [write] <;>
      exact fun c hc => hP.printable c (List.all_eq_true.mp (by decide) c hc)
  | .int n, _ => by
    rw [write, nums.repr_int, String.toList_ofList]
    exact fun c hc => hP.printable c ((isNumber_writeInt n).isPrintable c hc)
  | .float x, _ => by
    rw [write]
    exact fun c hc => hP.printable c (isPrintable_writeFloat nums x c hc)
  | .str s, _ => by
    rw [write]
    exact fun c hc => hP.printable c (isPrintable_quoted s c hc)
  | .list [], _ => by
    rw [write]
    exact fun c hc => hP.printable c (List.all_eq_true.mp (by decide) c hc)
  | .list (x :: xs), depth => by
    have hx := forall_write x (depth + 1)
    have hxs := forall_writeItems xs (depth + 1)
    simp only [write, List.forall_mem_cons, List.forall_mem_append, List.not_mem_nil,
      false_imp_iff, implies_true, and_true]
    exact ⟨hP.printable _ (by decide), ⟨⟨⟨hP.item _, hx⟩, hxs⟩, hP.close _⟩,
      hP.printable _ (by decide)⟩
  | .dict [], _ => by
    rw [write]
    exact fun c hc => hP.printable c (List.all_eq_true.mp (by decide) c hc)
  | .dict ((key, x) :: entries), depth => by
    have hx := forall_write x (depth + 1)
    have hentries := forall_writeEntries entries (depth + 1)
    have hkey : ∀ c ∈ quoted key, P c := fun c hc => hP.printable c (isPrintable_quoted key c hc)
    simp only [write, List.forall_mem_cons, List.forall_mem_append, List.not_mem_nil,
      false_imp_iff, implies_true, and_true]
    exact ⟨hP.printable _ (by decide), ⟨⟨⟨⟨⟨hP.item _, hkey⟩, hP.printable _ (by decide),
      hP.colon⟩, hx⟩, hentries⟩, hP.close _⟩, hP.printable _ (by decide)⟩

theorem forall_writeItems : ∀ (xs : List Value) (depth : Nat),
    ∀ c ∈ writeItems nums layout depth xs, P c
  | [], _ => nofun
  | x :: xs, depth => by
    have hx := forall_write x depth
    have hxs := forall_writeItems xs depth
    simp only [writeItems, List.forall_mem_cons, List.forall_mem_append]
    exact ⟨hP.printable _ (by decide), ⟨hP.item _, hx⟩, hxs⟩

theorem forall_writeEntries : ∀ (entries : List (String × Value)) (depth : Nat),
    ∀ c ∈ writeEntries nums layout depth entries, P c
  | [], _ => nofun
  | (key, x) :: entries, depth => by
    have hx := forall_write x depth
    have hentries := forall_writeEntries entries depth
    have hkey : ∀ c ∈ quoted key, P c := fun c hc => hP.printable c (isPrintable_quoted key c hc)
    simp only [writeEntries, List.forall_mem_cons, List.forall_mem_append]
    exact ⟨hP.printable _ (by decide), ⟨⟨⟨hP.item _, hkey⟩, hP.printable _ (by decide),
      hP.colon⟩, hx⟩, hentries⟩

end

end Layout

/-- Compact JSON is one line of printable ASCII. -/
theorem isPrintable_write (v : Value) (depth : Nat) :
    ∀ c ∈ write nums .compact depth v, isPrintable c = true := by
  have hallows : Layout.compact.Allows (isPrintable · = true) :=
    { printable := fun _ h => h
      item := fun _ _ hc => absurd hc List.not_mem_nil
      close := fun _ _ hc => absurd hc List.not_mem_nil
      colon := fun _ hc => absurd hc List.not_mem_nil }
  exact forall_write nums hallows v depth

/-- The line ends of indented JSON are all `\n`. -/
theorem return_not_mem_write (v : Value) (depth : Nat) : '\r' ∉ write nums .indented depth v := by
  have hblank : ∀ n, ∀ c ∈ '\n' :: List.replicate n ' ', c ≠ '\r' := by
    rintro n c hc rfl
    rcases List.mem_cons.mp hc with h | h
    · exact absurd h (by decide)
    · exact absurd (List.eq_of_mem_replicate h) (by decide)
  have hallows : Layout.indented.Allows (· ≠ '\r') :=
    { printable := by
        rintro c hc rfl
        exact absurd hc (by decide)
      item := fun depth => hblank _
      close := fun depth => hblank _
      colon := fun c hc => by
        rw [List.mem_singleton.mp hc]
        decide }
  exact fun h => forall_write nums hallows v depth _ h rfl

end Printable

/-! ## A library -/

/-- A float with a point between numerator and denominator. -/
def writePoint : Double → List Char
  | .finite x => Numerals.writeInt x.num ++ '.' :: Nat.toDigits 10 x.den
  | x => Numerals.writeFloat x

def readPoint (cs : List Char) : Option Double :=
  Numerals.readFloat (cs.map fun c => if c = '.' then '/' else c)

theorem map_point {cs : List Char} (h : ∀ c ∈ cs, c = '-' ∨ c.isDigit = true) :
    cs.map (fun c => if c = '.' then '/' else c) = cs := by
  refine List.map_congr_left (fun c hc => ?_) |>.trans (List.map_id cs)
  rcases h c hc with rfl | hdigit
  · rfl
  · exact if_neg fun hpoint => absurd (hpoint ▸ hdigit) (by decide)

theorem readPoint_writePoint (x : Double) : readPoint (writePoint x) = some x := by
  cases x with
  | nan => rfl
  | negInf => rfl
  | posInf => rfl
  | finite x =>
    rw [readPoint, writePoint, List.map_append, List.map_cons,
      map_point fun c hc => Numerals.mem_writeInt hc,
      map_point fun c hc => .inr (Numerals.isDigit_of_mem hc)]
    exact Numerals.readFloat_writeFloat (.finite x)

theorem scanInt_toDigits (n : Nat) (rest : List Char) :
    scanInt (Nat.toDigits 10 n ++ '.' :: rest) = some (Nat.toDigits 10 n, '.' :: rest) := by
  rcases Nat.eq_zero_or_pos n with rfl | hn
  · rfl
  · obtain ⟨c, digits, hdigits, hzero⟩ := toDigits_head hn
    have hall : ∀ d ∈ c :: digits, d.isDigit = true := by
      intro d hd
      rw [← hdigits] at hd
      exact Numerals.isDigit_of_mem hd
    obtain ⟨hc, hrest⟩ := List.forall_mem_cons.mp hall
    rw [hdigits, List.cons_append, scanInt, if_neg hzero, if_pos hc,
      List.takeWhile_append_of_pos hrest, List.dropWhile_append_of_pos hrest]
    simp

theorem scanUnsigned_point (n d : Nat) :
    scanUnsigned (Nat.toDigits 10 n ++ '.' :: Nat.toDigits 10 d) =
      some (Nat.toDigits 10 n ++ '.' :: Nat.toDigits 10 d, true, []) := by
  have hall : ∀ c ∈ Nat.toDigits 10 d, c.isDigit = true := fun c hc => Numerals.isDigit_of_mem hc
  have htake := List.takeWhile_eq_self_iff.mpr hall
  have hdrop := List.dropWhile_eq_nil_iff.mpr hall
  rw [scanUnsigned, scanInt_toDigits]
  simp [scanFraction, scanExponent, htake, hdrop, Nat.toDigits_ne_nil]

theorem isNumber_writePoint (x : ℚ) : IsNumber true (writePoint (.finite x)) := by
  rw [IsNumber, writePoint]
  cases x.num with
  | ofNat n => rw [Numerals.writeInt, scanNumber_toDigits, scanUnsigned_point]
  | negSucc n =>
    rw [Numerals.writeInt, List.cons_append, scanNumber, if_pos rfl, scanUnsigned_point]
    rfl

/-- A library that shows that the laws can hold together. -/
def Numbers.pointed : Numbers where
  lower := Runtime.ascii.lower
  lower_ascii := Runtime.ascii.lower_ascii
  repr
    | .int n => String.ofList (Numerals.writeInt n)
    | .float x => String.ofList (writePoint x)
    | _ => ""
  parseFloat s := readPoint s.toList
  parseInt := Numerals.fractions.parseInt
  parseInt_empty := Numerals.fractions.parseInt_empty
  parseInt_legible := Numerals.fractions.parseInt_legible
  parseInt_repr := Numerals.fractions.parseInt_repr
  strip_repr := Numerals.fractions.strip_repr
  parseFloat_repr x := by rw [String.toList_ofList, readPoint_writePoint]
  repr_int _ := rfl
  repr_finite x := by
    rw [String.toList_ofList]
    exact isNumber_writePoint x

/-! ## Codecs -/

/-- `s.encode("utf-8")`. -/
def encode (text : List Char) : List (BitVec 8) :=
  text.flatMap fun c => (String.utf8EncodeChar c).map UInt8.toBitVec

theorem encode_append (text rest : List Char) :
    encode (text ++ rest) = encode text ++ encode rest :=
  List.flatMap_append

/-- Printable ASCII is one byte for each character. -/
theorem mem_encode_of_printable {text : List Char} (h : ∀ c ∈ text, isPrintable c = true)
    {b : BitVec 8} (hb : b ∈ encode text) : 0x20 ≤ b.toNat ∧ b.toNat ≤ 0x7E := by
  obtain ⟨c, hc, hmem⟩ := List.mem_flatMap.mp hb
  have hprintable := h c hc
  simp only [isPrintable, Bool.and_eq_true, decide_eq_true_eq, Char.le_def,
    UInt32.le_iff_toNat_le] at hprintable
  obtain ⟨hlow, hhigh⟩ : 0x20 ≤ c.val.toNat ∧ c.val.toNat ≤ 0x7E := hprintable
  have hsmall : c.val.toNat ≤ 127 := le_trans hhigh (by decide)
  simp only [String.utf8EncodeChar, hsmall, if_true, List.map_cons, List.map_nil,
    List.mem_singleton] at hmem
  have hbyte : b.toNat = c.val.toNat := by
    rw [hmem]
    exact Nat.mod_eq_of_lt (by omega)
  omega

/-- What is known of a codec about some texts: it reads them as JSON, and undoes UTF-8. -/
structure Reads (nums : Numerals) (codec : Codec) (texts : List Char → Prop) : Prop where
  loads_parse : ∀ text v, texts text → parse nums text = some v →
    codec.loads (String.ofList text) = .ok v
  decode_encode : ∀ text, texts text → codec.decode (encode text) = String.ofList text

/-- A codec that knows nothing else. -/
def codec (nums : Numerals) : Codec where
  decode bytes :=
    match (ByteArray.mk (bytes.map UInt8.ofBitVec).toArray).utf8Decode? with
    | some text => String.ofList text.toList
    | none => ""
  loads text :=
    match parse nums text.toList with
    | some v => .ok v
    | none => .error .jsonDecodeError

theorem codec_reads (nums : Numerals) (texts : List Char → Prop) :
    Reads nums (codec nums) texts where
  loads_parse text v _ h := by simp only [codec, String.toList_ofList, h]
  decode_encode text _ := by
    have hbytes : ByteArray.mk ((encode text).map UInt8.ofBitVec).toArray = text.utf8Encode := by
      have hsame : UInt8.ofBitVec ∘ UInt8.toBitVec = id := rfl
      apply ByteArray.ext
      simp only [encode, List.map_flatMap, List.map_map, List.utf8Encode, List.data_toByteArray,
        hsame, List.map_id_fun, id_eq]
    simp only [codec, hbytes, List.utf8Decode?_utf8Encode]

end Python.Json
