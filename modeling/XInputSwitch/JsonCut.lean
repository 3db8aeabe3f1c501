import XInputSwitch.Json

/-! # JSON that is cut off

What has been read stays read, whatever stands after it (`staysRead`): a text, a list or a
dictionary ends by itself, and a number ends where a delimiter stands.  A dictionary that is cut
off anywhere before its last brace is therefore not read at all (`parse_cut`).
-/
namespace Python.Json

/-! ## Texts and numbers -/

section Tokens
variable {text rest : List Char} (more : List Char)

theorem readHex4_append {n : Nat} (h : readHex4 text = some (n, rest)) :
    readHex4 (text ++ more) = some (n, rest ++ more) := by
  rcases text with _ | ⟨a, _ | ⟨b, _ | ⟨c, _ | ⟨d, text⟩⟩⟩⟩
  iterate 4 cases h
  simp only [List.cons_append, readHex4, Option.bind_eq_bind, Option.bind_eq_some_iff,
    Option.pure_def, Option.some.injEq, Prod.mk.injEq] at h ⊢
  obtain ⟨a', ha, b', hb, c', hc, d', hd, hn, rfl⟩ := h
  exact ⟨a', ha, b', hb, c', hc, d', hd, hn, rfl⟩

theorem readUnicode_append {c : Char} (h : readUnicode text = some (c, rest)) :
    readUnicode (text ++ more) = some (c, rest ++ more) := by
  unfold readUnicode at h ⊢
  cases hfirst : readHex4 text with
  | none =>
    rw [hfirst] at h
    cases h
  | some first =>
    obtain ⟨n, after⟩ := first
    simp only [hfirst, readHex4_append more hfirst] at h ⊢
    split at h
    · rename_i hhigh
      rw [if_pos hhigh]
      split at h
      · rename_i after
        simp only [List.cons_append]
        cases hsecond : readHex4 after with
        | none =>
          rw [hsecond] at h
          cases h
        | some second =>
          obtain ⟨m, tail⟩ := second
          simp only [hsecond, readHex4_append more hsecond] at h ⊢
          split at h
          · rename_i hlow
            obtain ⟨rfl, rfl⟩ := Prod.mk.inj (Option.some.inj h)
            rw [if_pos hlow]
          · cases h
      · cases h
    · rename_i hhigh
      rw [if_neg hhigh]
      split at h
      · cases h
      · rename_i hlow
        obtain ⟨rfl, rfl⟩ := Prod.mk.inj (Option.some.inj h)
        rw [if_neg hlow]

theorem readChar_append {c : Char} (h : readChar text = some (c, rest)) :
    readChar (text ++ more) = some (c, rest ++ more) := by
  unfold readChar at h
  split at h
  · exact readUnicode_append more h
  · rename_i letter after hletter
    obtain ⟨c', hlookup, heq⟩ := Option.map_eq_some_iff.mp h
    obtain ⟨rfl, rfl⟩ := Prod.mk.inj heq
    simp [readChar, hlookup]
  · rename_i first after _ _
    split at h
    · cases h
    · rename_i hplain
      obtain ⟨rfl, rfl⟩ := Prod.mk.inj (Option.some.inj h)
      exact readChar_of_plain hplain _
  · cases h

theorem readString_quote (n : Nat) (rest : List Char) :
    readString n ('"' :: rest) = some ([], rest) := by
  cases n <;> rfl

theorem readString_succ (n : Nat) {text : List Char} (h : text.head? ≠ some '"') :
    readString (n + 1) text =
      match readChar text with
      | none => none
      | some (c, rest) => (readString n rest).map fun read => (c :: read.1, read.2) := by
  cases text with
  | nil => rfl
  | cons c text =>
    have hc : c ≠ '"' := by simpa using h
    have hquote : ∀ rest, c :: text = '"' :: rest → False :=
      fun rest heq => hc (List.cons.inj heq).1
    refine (readString.eq_3 (c :: text) n hquote).trans ?_
    cases readChar (c :: text) <;> rfl

theorem readString_append {n m : Nat} (hnm : n ≤ m) {s : List Char}
    (h : readString n text = some (s, rest)) :
    readString m (text ++ more) = some (s, rest ++ more) := by
  induction n generalizing m text s rest with
  | zero =>
    cases text with
    | nil => cases h
    | cons c text =>
      by_cases hc : c = '"'
      · subst hc
        obtain ⟨rfl, rfl⟩ := Prod.mk.inj (Option.some.inj h)
        exact readString_quote m _
      · simp [readString, hc] at h
  | succ n ih =>
    by_cases hquote : text.head? = some '"'
    · obtain ⟨tail, rfl⟩ := List.head?_eq_some_iff.mp hquote
      rw [readString_quote] at h
      obtain ⟨rfl, rfl⟩ := Prod.mk.inj (Option.some.inj h)
      exact readString_quote m _
    · rw [readString_succ n hquote] at h
      cases hread : readChar text with
      | none =>
        rw [hread] at h
        cases h
      | some read =>
        obtain ⟨c, after⟩ := read
        simp only [hread] at h
        obtain ⟨⟨s', tail⟩, hrest, heq⟩ := Option.map_eq_some_iff.mp h
        obtain ⟨rfl, rfl⟩ := Prod.mk.inj heq
        obtain ⟨m, rfl⟩ : ∃ k, m = k + 1 := ⟨m - 1, by omega⟩
        have hhead : (text ++ more).head? ≠ some '"' := by
          cases text with
          | nil => cases hread
          | cons d text => exact hquote
        rw [readString_succ m hhead, readChar_append more hread]
        simp only [ih (Nat.le_of_succ_le_succ hnm) hrest, Option.map_some]

/-! A number is what was scanned, with the rest after it. -/

theorem scanInt_eq {read : List Char × List Char} (h : scanInt text = some read) :
    read.1 ++ read.2 = text := by
  cases text with
  | nil => cases h
  | cons c rest =>
    rw [scanInt] at h
    split at h
    · obtain rfl := Option.some.inj h
      rfl
    · split at h
      · obtain rfl := Option.some.inj h
        simp [List.takeWhile_append_dropWhile]
      · cases h

theorem scanFraction_eq (text : List Char) :
    (scanFraction text).1 ++ (scanFraction text).2 = text := by
  cases text with
  | nil => rfl
  | cons c rest =>
    rw [scanFraction]
    split
    · simp [List.takeWhile_append_dropWhile]
    · rfl

theorem scanSign_eq (text : List Char) : (scanSign text).1 ++ (scanSign text).2 = text := by
  cases text with
  | nil => rfl
  | cons c rest =>
    rw [scanSign]
    split <;> rfl

theorem scanExponent_eq (text : List Char) :
    (scanExponent text).1 ++ (scanExponent text).2 = text := by
  cases text with
  | nil => rfl
  | cons c rest =>
    simp only [scanExponent]
    split
    · simp only [List.cons_append, List.append_assoc, List.takeWhile_append_dropWhile,
        scanSign_eq]
    · rfl

theorem scanUnsigned_eq {read : List Char × Bool × List Char}
    (h : scanUnsigned text = some read) : read.1 ++ read.2.2 = text := by
  rw [scanUnsigned] at h
  cases hwhole : scanInt text with
  | none =>
    rw [hwhole] at h
    cases h
  | some whole =>
    rw [hwhole] at h
    obtain rfl := Option.some.inj h
    simp only [List.append_assoc, scanExponent_eq, scanFraction_eq]
    exact scanInt_eq hwhole

theorem scanNumber_eq {read : List Char × Bool × List Char} (h : scanNumber text = some read) :
    read.1 ++ read.2.2 = text := by
  cases text with
  | nil => cases h
  | cons c rest =>
    rw [scanNumber] at h
    split at h
    · obtain ⟨unsigned, hunsigned, rfl⟩ := Option.map_eq_some_iff.mp h
      exact congrArg (c :: ·) (scanUnsigned_eq hunsigned)
    · exact scanUnsigned_eq h

/-- A number that a delimiter ends. -/
theorem isNumber_of_scanNumber {number : List Char} {isFloat : Bool}
    (h : scanNumber text = some (number, isFloat, rest)) (hends : Ends rest) :
    text = number ++ rest ∧ IsNumber isFloat number := by
  have htext : number ++ rest = text := scanNumber_eq h
  rw [← htext, scanNumber_append hends] at h
  obtain ⟨⟨number', isFloat', rest'⟩, hread, heq⟩ := Option.map_eq_some_iff.mp h
  simp only [Prod.mk.injEq] at heq
  obtain ⟨rfl, rfl, hrest⟩ := heq
  refine ⟨htext.symm, ?_⟩
  rw [IsNumber, hread, List.append_left_eq_self.mp hrest]

end Tokens

/-! ## Values -/

/-- The text ends by itself. -/
def Closes (text : List Char) : Prop := ∃ c ∈ text.head?, c ∈ ['"', '[', '\x7b']

/-- A delimiter follows. -/
def Delimited (rest : List Char) : Prop := rest ≠ [] ∧ Ends rest

theorem Delimited.append {rest : List Char} (h : Delimited rest) (more : List Char) :
    Delimited (rest ++ more) := by
  obtain ⟨hne, hends⟩ := h
  cases rest with
  | nil => exact absurd rfl hne
  | cons c rest => exact ⟨List.cons_ne_nil _ _, hends⟩

theorem skip_append_of_ne_nil {text : List Char} (h : skip text ≠ []) (more : List Char) :
    skip (text ++ more) = skip text ++ more := by
  unfold skip at h ⊢
  rw [List.dropWhile_append]
  simp [h]

section Values
variable (nums : Numbers) {text rest : List Char} {v : Value} (more : List Char)

theorem readScalar_append (h : readScalar nums.toNumerals text = some (v, rest))
    (hrest : Delimited rest) :
    readScalar nums.toNumerals (text ++ more) = some (v, rest ++ more) := by
  unfold readScalar at h
  split at h
  · rename_i keyword value hfind
    have hkeyword := List.find?_some hfind
    obtain ⟨tail, rfl⟩ := List.isPrefixOf_iff_prefix.mp hkeyword
    rw [List.drop_left] at h
    obtain ⟨rfl, rfl⟩ := Prod.mk.inj (Option.some.inj h)
    rw [List.append_assoc]
    exact readScalar_keyword nums (List.mem_of_find?_eq_some hfind) _
  · split at h
    · cases h
    · rename_i number isFloat after hscan
      have hafter : after = rest := by
        split at h
        · obtain ⟨x, -, heq⟩ := Option.map_eq_some_iff.mp h
          exact (Prod.mk.inj heq).2
        · obtain ⟨x, -, heq⟩ := Option.map_eq_some_iff.mp h
          exact (Prod.mk.inj heq).2
      subst hafter
      obtain ⟨rfl, hnumber⟩ := isNumber_of_scanNumber hscan hrest.2
      rw [List.append_assoc, readScalar_number nums hnumber (hrest.append more).2]
      split at h
      · obtain ⟨x, hx, heq⟩ := Option.map_eq_some_iff.mp h
        obtain ⟨rfl, -⟩ := Prod.mk.inj heq
        simp [*]
      · obtain ⟨x, hx, heq⟩ := Option.map_eq_some_iff.mp h
        obtain ⟨rfl, -⟩ := Prod.mk.inj heq
        simp [*]

/-- What follows a value in a list or a dictionary. -/
theorem delimited_of_skip {c : Char} {tail : List Char} (hskip : skip rest = c :: tail)
    (hc : c ∈ [',', ']', '\x7d']) : Delimited rest := by
  cases rest with
  | nil => cases hskip
  | cons d rest =>
    refine ⟨List.cons_ne_nil _ _, fun d' hd' => ?_⟩
    obtain rfl := Option.some.inj hd'
    by_cases hd : isBlank d = true
    · simp [isDelimiter, hd]
    · rw [skip_cons (Bool.eq_false_iff.mpr hd)] at hskip
      obtain ⟨rfl, -⟩ := List.cons.inj hskip
      revert hc
      simp only [List.mem_cons, List.not_mem_nil, or_false]
      rintro (rfl | rfl | rfl) <;> decide

/-- What has been read with `n` stays read, with as much fuel or more. -/
structure StaysRead (n : Nat) : Prop where
  value : ∀ {m : Nat} {text : List Char} {v : Value} {rest : List Char}, n ≤ m →
    readValue nums.toNumerals n text = some (v, rest) → Closes text ∨ Delimited rest →
    readValue nums.toNumerals m (text ++ more) = some (v, rest ++ more)
  items : ∀ {m : Nat} {text : List Char} {xs : List Value} {rest : List Char}, n ≤ m →
    readItems nums.toNumerals n text = some (xs, rest) →
    readItems nums.toNumerals m (text ++ more) = some (xs, rest ++ more)
  entries : ∀ {m : Nat} {text : List Char} {entries : List (String × Value)} {rest : List Char},
    n ≤ m → readEntries nums.toNumerals n text = some (entries, rest) →
    readEntries nums.toNumerals m (text ++ more) = some (entries, rest ++ more)

variable {nums more} {n m : Nat}

theorem readValue_nil (n : Nat) : readValue nums.toNumerals n [] = none := by
  cases n <;> rfl

theorem readItems_nil (n : Nat) : readItems nums.toNumerals n [] = none := by
  cases n with
  | zero => rfl
  | succ n => rw [readItems, readValue_nil]

theorem readEntries_nil (n : Nat) : readEntries nums.toNumerals n [] = none := by
  cases n <;> rfl

theorem StaysRead.list_succ (h : StaysRead nums more n) (hnm : n ≤ m)
    (hread : readValue nums.toNumerals (n + 1) ('[' :: text) = some (v, rest)) :
    readValue nums.toNumerals (m + 1) ('[' :: (text ++ more)) = some (v, rest ++ more) := by
  cases hskip : skip text with
  | nil =>
    simp only [readValue, hskip, readItems_nil, Option.map_none] at hread
    cases hread
  | cons c after =>
    have hskip' := skip_append_of_ne_nil (by rw [hskip]; simp) more
    rw [hskip, List.cons_append] at hskip'
    by_cases hc : c = ']'
    · subst hc
      simp only [readValue, hskip] at hread
      obtain ⟨rfl, rfl⟩ := Prod.mk.inj (Option.some.inj hread)
      simp only [readValue, hskip']
    · rw [readValue_list nums hskip hc] at hread
      obtain ⟨⟨xs, last⟩, hitems, heq⟩ := Option.map_eq_some_iff.mp hread
      obtain ⟨rfl, rfl⟩ := Prod.mk.inj heq
      rw [readValue_list nums hskip' hc, ← List.cons_append, h.items hnm hitems]
      rfl

theorem StaysRead.dict_succ (h : StaysRead nums more n) (hnm : n ≤ m)
    (hread : readValue nums.toNumerals (n + 1) ('\x7b' :: text) = some (v, rest)) :
    readValue nums.toNumerals (m + 1) ('\x7b' :: (text ++ more)) = some (v, rest ++ more) := by
  cases hskip : skip text with
  | nil =>
    simp only [readValue, hskip, readEntries_nil, Option.map_none] at hread
    cases hread
  | cons c after =>
    have hskip' := skip_append_of_ne_nil (by rw [hskip]; simp) more
    rw [hskip, List.cons_append] at hskip'
    by_cases hc : c = '\x7d'
    · subst hc
      simp only [readValue, hskip] at hread
      obtain ⟨rfl, rfl⟩ := Prod.mk.inj (Option.some.inj hread)
      simp only [readValue, hskip']
    · rw [readValue_dict nums hskip hc] at hread
      obtain ⟨⟨entries, last⟩, hentries, heq⟩ := Option.map_eq_some_iff.mp hread
      obtain ⟨rfl, rfl⟩ := Prod.mk.inj heq
      rw [readValue_dict nums hskip' hc, ← List.cons_append, h.entries hnm hentries]
      rfl

theorem StaysRead.value_succ (h : StaysRead nums more n) (hnm : n ≤ m)
    (hread : readValue nums.toNumerals (n + 1) text = some (v, rest))
    (hclose : Closes text ∨ Delimited rest) :
    readValue nums.toNumerals (m + 1) (text ++ more) = some (v, rest ++ more) := by
  cases text with
  | nil =>
    rw [readValue_nil] at hread
    cases hread
  | cons c text =>
    by_cases hmark : c ∈ ['"', '[', '\x7b']
    · simp only [List.mem_cons, List.not_mem_nil, or_false] at hmark
      rcases hmark with rfl | rfl | rfl
      · obtain ⟨⟨s, after⟩, hstring, heq⟩ := Option.map_eq_some_iff.mp hread
        obtain ⟨rfl, rfl⟩ := Prod.mk.inj heq
        have hlength : text.length ≤ (text ++ more).length := by simp
        simp only [List.cons_append, readValue, readString_append more hlength hstring,
          Option.map_some]
      · exact h.list_succ hnm hread
      · exact h.dict_succ hnm hread
    · have hplain : ∀ k rest, readValue nums.toNumerals (k + 1) (c :: rest) =
          readScalar nums.toNumerals (c :: rest) := by
        intro k rest
        simp only [List.mem_cons, List.not_mem_nil, or_false, not_or] at hmark
        unfold readValue
        split
        · rename_i heq
          exact absurd (List.cons.inj heq).1 hmark.1
        · rename_i heq
          exact absurd (List.cons.inj heq).1 hmark.2.1
        · rename_i heq
          exact absurd (List.cons.inj heq).1 hmark.2.2
        · rfl
      have hrest : Delimited rest := by
        refine hclose.resolve_left ?_
        rintro ⟨d, hd, hmem⟩
        obtain rfl := Option.some.inj hd
        exact hmark hmem
      rw [hplain] at hread
      rw [List.cons_append, hplain, ← List.cons_append]
      exact readScalar_append nums more hread hrest

theorem StaysRead.items_succ (h : StaysRead nums more n) (hnm : n ≤ m) {xs : List Value}
    (hread : readItems nums.toNumerals (n + 1) text = some (xs, rest)) :
    readItems nums.toNumerals (m + 1) (text ++ more) = some (xs, rest ++ more) := by
  rw [readItems] at hread
  cases hvalue : readValue nums.toNumerals n text with
  | none =>
    rw [hvalue] at hread
    cases hread
  | some read =>
    obtain ⟨x, after⟩ := read
    simp only [hvalue] at hread
    split at hread
    · rename_i tail hskip
      obtain ⟨rfl, rfl⟩ := Prod.mk.inj (Option.some.inj hread)
      have hvalue' := h.value hnm hvalue (.inr (delimited_of_skip hskip (by simp)))
      have hskip' := skip_append_of_ne_nil (by rw [hskip]; simp) more
      rw [hskip] at hskip'
      simp only [readItems, hvalue', hskip', List.cons_append]
    · rename_i tail hskip
      obtain ⟨⟨ys, last⟩, hitems, heq⟩ := Option.map_eq_some_iff.mp hread
      obtain ⟨rfl, rfl⟩ := Prod.mk.inj heq
      have hvalue' := h.value hnm hvalue (.inr (delimited_of_skip hskip (by simp)))
      have hskip' := skip_append_of_ne_nil (by rw [hskip]; simp) more
      rw [hskip] at hskip'
      have htail : skip (tail ++ more) = skip tail ++ more := by
        refine skip_append_of_ne_nil (fun hnil => ?_) more
        rw [hnil, readItems_nil] at hitems
        cases hitems
      simp only [readItems, hvalue', hskip', List.cons_append, htail, h.items hnm hitems,
        Option.map_some]
    · cases hread

theorem StaysRead.entries_succ (h : StaysRead nums more n) (hnm : n ≤ m)
    {entries : List (String × Value)}
    (hread : readEntries nums.toNumerals (n + 1) text = some (entries, rest)) :
    readEntries nums.toNumerals (m + 1) (text ++ more) = some (entries, rest ++ more) := by
  unfold readEntries at hread
  split at hread
  · rename_i heq
    cases heq
  · rename_i k tail heq
    obtain rfl := Nat.succ.inj heq
    cases hstring : readString tail.length tail with
    | none =>
      rw [hstring] at hread
      cases hread
    | some key =>
      obtain ⟨key, after⟩ := key
      have hlength : tail.length ≤ (tail ++ more).length := by simp
      have hstring' := readString_append more hlength hstring
      simp only [hstring] at hread
      split at hread
      · rename_i colon hcolon
        have hcolon' := skip_append_of_ne_nil (by rw [hcolon]; simp) more
        rw [hcolon, List.cons_append] at hcolon'
        cases hvalue : readValue nums.toNumerals n (skip colon) with
        | none =>
          rw [hvalue] at hread
          cases hread
        | some read =>
          obtain ⟨x, last⟩ := read
          have hskip : skip (colon ++ more) = skip colon ++ more := by
            refine skip_append_of_ne_nil (fun hnil => ?_) more
            rw [hnil, readValue_nil] at hvalue
            cases hvalue
          simp only [hvalue] at hread
          split at hread
          · rename_i closed hclosed
            obtain ⟨rfl, rfl⟩ := Prod.mk.inj (Option.some.inj hread)
            have hvalue' := h.value hnm hvalue (.inr (delimited_of_skip hclosed (by simp)))
            have hclosed' := skip_append_of_ne_nil (by rw [hclosed]; simp) more
            rw [hclosed, List.cons_append] at hclosed'
            simp only [List.cons_append, readEntries, hstring', hcolon', hskip, hvalue', hclosed']
          · rename_i next hcomma
            obtain ⟨⟨others, last⟩, hentries, heq⟩ := Option.map_eq_some_iff.mp hread
            obtain ⟨rfl, rfl⟩ := Prod.mk.inj heq
            have hvalue' := h.value hnm hvalue (.inr (delimited_of_skip hcomma (by simp)))
            have hcomma' := skip_append_of_ne_nil (by rw [hcomma]; simp) more
            rw [hcomma, List.cons_append] at hcomma'
            have hnext : skip (next ++ more) = skip next ++ more := by
              refine skip_append_of_ne_nil (fun hnil => ?_) more
              rw [hnil, readEntries_nil] at hentries
              cases hentries
            simp only [List.cons_append, readEntries, hstring', hcolon', hskip, hvalue', hcomma',
              hnext, h.entries hnm hentries, Option.map_some]
          · cases hread
      · cases hread
  · cases hread

/-- **What has been read stays read.** -/
theorem staysRead (n : Nat) : StaysRead nums more n := by
  induction n with
  | zero =>
    refine ⟨?_, ?_, ?_⟩
    · intro m text v rest _ h _
      cases h
    · intro m text xs rest _ h
      cases h
    · intro m text entries rest _ h
      cases h
  | succ n ih =>
    have hpred : ∀ {m : Nat}, n + 1 ≤ m → ∃ k, m = k + 1 ∧ n ≤ k :=
      fun {m} hm => ⟨m - 1, by omega⟩
    refine ⟨?_, ?_, ?_⟩
    · intro m text v rest hm h hclose
      obtain ⟨k, rfl, hk⟩ := hpred hm
      exact ih.value_succ hk h hclose
    · intro m text xs rest hm h
      obtain ⟨k, rfl, hk⟩ := hpred hm
      exact ih.items_succ hk h
    · intro m text entries rest hm h
      obtain ⟨k, rfl, hk⟩ := hpred hm
      exact ih.entries_succ hk h

end Values

/-! ## Cut off -/

/-- **A dictionary that is cut off is not read.**  A beginning of the text that is read at all is
the whole text. -/
theorem parse_cut (nums : Numbers) (layout : Layout) {entries : List (String × Value)}
    (hdumpable : Dumpable (.dict entries)) {text more : List Char} {v : Value}
    (htext : text ++ more = write nums layout 0 (.dict entries))
    (hparse : parse nums.toNumerals text = some v) : more = [] ∧ v = .dict entries := by
  obtain ⟨inner, hwrite⟩ : ∃ inner, write nums layout 0 (.dict entries) = '\x7b' :: inner := by
    cases entries with
    | nil => exact ⟨_, by rw [write]⟩
    | cons e entries => exact ⟨_, by rw [write]⟩
  cases text with
  | nil => cases hparse
  | cons c text =>
    obtain rfl : c = '\x7b' := by
      rw [hwrite, List.cons_append] at htext
      exact (List.cons.inj htext).1
    rw [parse, skip_cons (by decide)] at hparse
    split at hparse
    · cases hparse
    · rename_i value rest hread
      split at hparse
      · obtain rfl := Option.some.inj hparse
        let whole := '\x7b' :: text ++ more
        have hfuel : ('\x7b' :: text).length + 1 ≤ whole.length + 1 := by simp [whole]
        have hagain : readValue nums.toNumerals (whole.length + 1) whole =
            some (value, rest ++ more) :=
          (staysRead _).value hfuel hread (.inl ⟨'\x7b', rfl, by simp⟩)
        have hsize : size (.dict entries) ≤ whole.length + 1 := by
          rw [show whole = _ from htext]
          exact (size_le_length nums layout (.dict entries) 0).trans (Nat.le_succ _)
        have hends : Ends [] := fun c hc => by cases hc
        have hwhole := readValue_write nums layout (.dict entries) 0 _ [] hdumpable hsize hends
        rw [List.append_nil, ← htext] at hwhole
        obtain ⟨rfl, hrest⟩ := Prod.mk.inj (Option.some.inj (hagain.symm.trans hwhole))
        exact ⟨(List.append_eq_nil_iff.mp hrest).2, rfl⟩
      · cases hparse

end Python.Json
