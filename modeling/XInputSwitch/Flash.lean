import Mathlib.Tactic.IntervalCases
import XInputSwitch.Joystick
import XInputSwitch.Replies

/-! # What the console reads from the flash memory

Behind `spi_read` is a memory: at each address it knows, some bytes (`flashImage`), and
`0xFF` everywhere else.  A read shows the memory byte by byte, whatever its size, with
one exception: the colours are copied by threes, so that a read which ends inside a
colour shows none of it (`getElem_spiRead`, `spi_read_consistent`).

The console names 32-bit addresses.  `process_OUT_report` reads the lower half only, and
answers as if the upper half had been zero (`spi_reply_echoes`).
-/
namespace XInputSwitch

/-! ## The memory -/

/-- The bytes from an address on, as far as there are any. -/
def flashImage (address : BitVec 16) : List Byte :=
  if address = addressControllerColor then
    controllerColor ++ buttonColor ++ leftGripColor ++ rightGripColor
  else if address = addressFactoryParameters1 then factoryParameters1
  else if address = addressFactoryParameters2 then factoryParameters2
  else if address = addressFactoryCalibration1 then factoryCalibration1
  else if address = addressFactoryCalibration2 then factoryCalibration2
  else if address = addressSticksCalibration then List.replicate 22 0xFF ++ [0xB2, 0xA1]
  else if address = addressImuCalibration then imuCalibration
  else []

section Writes
variable {size : Nat} (buf : Buffer Byte size) {j : Nat}

theorem minSize_eq_min (s₁ s₂ : Nat) : minSize s₁ s₂ = min s₁ s₂ := by
  unfold minSize
  split <;> omega

theorem getElem_copyPrefix (table : List Byte) (hj : j < size) :
    (copyPrefix buf table).cells[j] = table.getD j (buf.cells[j]) := by
  rw [copyPrefix, Buffer.getElem_copy _ _ _ _ hj (buf.cells[j]), minSize_eq_min,
    List.length_take]
  by_cases hlt : j < table.length
  · rw [if_pos (by omega), Nat.sub_zero, List.getD_eq_getElem?_getD, List.getD_eq_getElem?_getD,
      List.getElem?_take_of_lt (by omega)]
  · rw [if_neg (by omega), List.getD_eq_default _ _ (by omega)]

theorem getElem_copyWhole (offset : Nat) (table : List Byte) (hj : j < size) :
    (copyWhole buf offset table).cells[j] =
      if offset + table.length ≤ size ∧ offset ≤ j ∧ j < offset + table.length then
        table.getD (j - offset) 0xFF
      else buf.cells[j] := by
  unfold copyWhole
  by_cases hsize : offset + table.length ≤ size
  · rw [if_pos hsize, Buffer.getElem_copy _ _ _ _ hj 0xFF]
    simp only [hsize, true_and]
  · rw [if_neg hsize, if_neg fun h => hsize h.1]

theorem getElem_patch (offset : Nat) (b : Byte) (hj : j < size) :
    (patch buf offset b).cells[j] = if j = offset then b else buf.cells[j] := by
  unfold patch
  by_cases hsize : offset < size
  · rw [if_pos hsize]
    simp only [Buffer.store, Vector.getElem_setIfInBounds, eq_comm]
  · rw [if_neg hsize, if_neg (by omega)]

theorem mem_touched_copyPrefix (table : List Byte) (i : Nat) :
    i ∈ (copyPrefix buf table).touched ↔ i ∈ buf.touched ∨ i < min size table.length := by
  rw [copyPrefix, Buffer.mem_touched_copy, minSize_eq_min, List.length_take]
  simp

theorem mem_touched_copyWhole (offset : Nat) (table : List Byte) (i : Nat) :
    i ∈ (copyWhole buf offset table).touched ↔ i ∈ buf.touched ∨
      (offset + table.length ≤ size ∧ offset ≤ i ∧ i < offset + table.length) := by
  unfold copyWhole
  split
  · rename_i hsize
    rw [Buffer.mem_touched_copy]
    simp only [hsize, true_and]
  · rename_i hsize
    simp only [hsize, false_and, or_false]

theorem mem_touched_patch (offset : Nat) (b : Byte) (i : Nat) :
    i ∈ (patch buf offset b).touched ↔ i ∈ buf.touched ∨ (offset < size ∧ i = offset) := by
  unfold patch
  split
  · rename_i hsize
    rw [Buffer.mem_touched_store, or_comm]
    simp only [hsize, true_and]
  · rename_i hsize
    simp only [hsize, false_and, or_false]

end Writes

/-! ## One read -/

/-- The buffer before anything is copied into it. -/
theorem getElem_erased {size j : Nat} (hj : j < size) :
    ((Buffer.blank 0).fill 0xFF : Buffer Byte size).cells[j] = 0xFF := by
  simp only [Buffer.fill_cells, Buffer.getElem_padded, List.getD_nil]

/-- The buffer shows `xs`, but only the groups of three that it has room for. -/
def ShowsThrees {size : Nat} (buf : Buffer Byte size) (xs : List Byte) : Prop :=
  ∀ j (hj : j < size),
    buf.cells[j] = if size < 3 * (j / 3) + 3 then 0xFF else xs.getD j 0xFF

/-- One more group of three. -/
theorem ShowsThrees.copyWhole {size : Nat} {buf : Buffer Byte size} {xs : List Byte}
    (h : ShowsThrees buf xs) {k : Nat} (hxs : xs.length = 3 * k) (ys : List Byte)
    (hys : ys.length = 3) :
    ShowsThrees (copyWhole buf (3 * k) ys) (xs ++ ys) := by
  intro j hj
  rw [getElem_copyWhole _ _ _ hj, h j hj, hys]
  by_cases hin : 3 * k ≤ j ∧ j < 3 * k + 3
  · rw [List.getD_append_right _ _ _ _ (by omega), hxs]
    by_cases hsize : 3 * k + 3 ≤ size
    · rw [if_pos ⟨hsize, hin⟩, if_neg (by omega)]
    · rw [if_neg fun hc => hsize hc.1, if_pos (by omega), if_pos (by omega)]
  · rw [if_neg fun hc => hin hc.2]
    by_cases hlt : j < 3 * k
    · rw [List.getD_append _ _ _ _ (by omega)]
    · have hout : xs.getD j 0xFF = 0xFF := List.getD_eq_default _ _ (by omega)
      have hout' : (xs ++ ys).getD j 0xFF = 0xFF :=
        List.getD_eq_default _ _ (by rw [List.length_append]; omega)
      rw [hout, hout']

/-- The colours, one after the other. -/
theorem showsThrees_colors (size : Nat) :
    ShowsThrees (spiRead addressControllerColor size) (flashImage addressControllerColor) := by
  have h₀ : ShowsThrees ((Buffer.blank 0).fill 0xFF : Buffer Byte size) [] := by
    intro j hj
    rw [getElem_erased hj, List.getD_nil, ite_self]
  have h₁ := h₀.copyWhole (k := 0) rfl controllerColor rfl
  have h₂ := h₁.copyWhole (k := 1) rfl buttonColor rfl
  have h₃ := h₂.copyWhole (k := 2) rfl leftGripColor rfl
  exact h₃.copyWhole (k := 3) rfl rightGripColor rfl

/-- The two bytes of the stick calibration. -/
theorem getElem_sticks {size j : Nat} {buf : Buffer Byte size} (hj : j < size)
    (hbuf : buf.cells[j] = 0xFF) :
    (patch (patch buf 22 0xB2) 23 0xA1).cells[j] =
      (List.replicate 22 0xFF ++ [0xB2, 0xA1] : List Byte).getD j 0xFF := by
  rw [getElem_patch _ _ _ hj, getElem_patch _ _ _ hj, hbuf]
  by_cases hlt : j < 22
  · rw [if_neg (by omega), if_neg (by omega), List.getD_append _ _ _ _ (by simpa using hlt),
      List.getD_replicate _ hlt]
  · rw [List.getD_append_right _ _ _ _ (by simpa using hlt), List.length_replicate]
    obtain rfl | rfl | hge : j = 22 ∨ j = 23 ∨ 24 ≤ j := by omega
    · rfl
    · rfl
    · rw [if_neg (by omega), if_neg (by omega), List.getD_eq_default _ _ (by simp; omega)]

/-- **A read shows the memory**, except that colours are shown whole or not at all. -/
theorem getElem_spiRead (address : BitVec 16) {size j : Nat} (hj : j < size) :
    (spiRead address size).cells[j] =
      if address = addressControllerColor ∧ size < 3 * (j / 3) + 3 then 0xFF
      else (flashImage address).getD j 0xFF := by
  by_cases hcolor : address = addressControllerColor
  · rw [hcolor, showsThrees_colors size j hj]
    simp only [true_and]
  · have herased := getElem_erased hj
    rw [if_neg fun hc => hcolor hc.1]
    unfold spiRead flashImage
    simp only [if_neg hcolor]
    -- one case for each address that has a table
    by_cases h₁ : address = addressFactoryParameters1
    · simp only [if_pos h₁, getElem_copyPrefix _ _ hj, herased]
    by_cases h₂ : address = addressFactoryParameters2
    · simp only [if_neg h₁, if_pos h₂, getElem_copyPrefix _ _ hj, herased]
    by_cases h₃ : address = addressFactoryCalibration1
    · simp only [if_neg h₁, if_neg h₂, if_pos h₃, getElem_copyPrefix _ _ hj, herased]
    by_cases h₄ : address = addressFactoryCalibration2
    · simp only [if_neg h₁, if_neg h₂, if_neg h₃, if_pos h₄, getElem_copyPrefix _ _ hj, herased]
    by_cases h₅ : address = addressSticksCalibration
    · simp only [if_neg h₁, if_neg h₂, if_neg h₃, if_neg h₄, if_pos h₅]
      exact getElem_sticks hj herased
    by_cases h₆ : address = addressImuCalibration
    · simp only [if_neg h₁, if_neg h₂, if_neg h₃, if_neg h₄, if_neg h₅, if_pos h₆,
        getElem_copyPrefix _ _ hj, herased]
    · simp only [if_neg h₁, if_neg h₂, if_neg h₃, if_neg h₄, if_neg h₅, if_neg h₆, herased,
        List.getD_nil]

/-- A read writes its buffer from end to end, and nothing else. -/
theorem mem_touched_spiRead (address : BitVec 16) (size i : Nat) :
    i ∈ (spiRead address size).touched ↔ i < size := by
  have herased : i ∈ ((Buffer.blank 0).fill 0xFF : Buffer Byte size).touched ↔ i < size := by
    rw [Buffer.mem_touched_fill]
    exact or_iff_right List.not_mem_nil
  unfold spiRead
  repeat' split
  all_goals
    simp only [mem_touched_copyWhole, mem_touched_copyPrefix, mem_touched_patch, herased]
    try omega

/-! ## Reads of different sizes -/

/-- **Reads are consistent in size**, except for colours: a read of `s` bytes writes its
buffer and no more, and shows the first `s` bytes of a read of `t`, if and only if no
colour is cut that the longer read shows. -/
theorem spi_read_consistent (address : BitVec 16) {s t : Nat} (hle : s ≤ t) :
    ((∀ i, i ∈ (spiRead address s).touched ↔ i < s) ∧
      (spiRead address s).cells.toList = (spiRead address t).cells.toList.take s) ↔
    (address = addressControllerColor → s % 3 = 0 ∨ 12 ≤ s ∨ s / 3 = t / 3) := by
  have hbytes : (spiRead address s).cells.toList = (spiRead address t).cells.toList.take s ↔
      ∀ j (hj : j < s), (spiRead address s).cells[j] = (spiRead address t).cells[j] := by
    constructor
    · intro h j hj
      have := congrArg (fun l => l[j]?) h
      simpa [List.getElem?_take_of_lt hj, hj, lt_of_lt_of_le hj hle] using this
    · intro h
      apply List.ext_getElem
      · simp [hle]
      · intro j hj hj'
        have hjs : j < s := by simpa using hj
        simpa using h j hjs
  rw [hbytes, and_iff_right (mem_touched_spiRead address s)]
  constructor
  · rintro h rfl
    by_contra hcut
    push Not at hcut
    obtain ⟨hmod, hlt, hne⟩ := hcut
    -- the first byte of the colour that is cut
    have hj : 3 * (s / 3) < s := by omega
    have hbyte := h (3 * (s / 3)) hj
    rw [getElem_spiRead _ hj, getElem_spiRead _ (lt_of_lt_of_le hj hle), if_pos ⟨rfl, by omega⟩,
      if_neg (by omega)] at hbyte
    have hk : s / 3 < 4 := by omega
    interval_cases s / 3 <;> cases hbyte
  · intro h j hj
    rw [getElem_spiRead _ hj, getElem_spiRead _ (lt_of_lt_of_le hj hle)]
    by_cases hcolor : address = addressControllerColor
    · subst hcolor
      simp only [true_and]
      have hcases := h rfl
      by_cases hgroup : j / 3 < 4
      · have hiff : s < 3 * (j / 3) + 3 ↔ t < 3 * (j / 3) + 3 := by omega
        simp only [hiff]
      · have hout : (flashImage addressControllerColor).getD j 0xFF = 0xFF :=
          List.getD_eq_default _ _ (by
            have hlen : (flashImage addressControllerColor).length = 12 := rfl
            omega)
        rw [hout, ite_self, ite_self]
    · rw [if_neg fun hc => hcolor hc.1, if_neg fun hc => hcolor hc.1]

/-- Reads of 3 and of 23 bytes of the stick calibration. -/
theorem spi_read_consistent_sticks :
    (spiRead addressSticksCalibration 3).cells.toList =
      (spiRead addressSticksCalibration 23).cells.toList.take 3 :=
  ((spi_read_consistent addressSticksCalibration (by decide)).mpr fun h => absurd h (by decide)).2

/-- One byte of the first colour, alone and in a read of three. -/
theorem spi_read_color_cut :
    (spiRead addressControllerColor 1).cells.toList = [0xFF] ∧
      (spiRead addressControllerColor 3).cells.toList.take 1 = [0x0A] := by
  decide +kernel

/-! ## Replies -/

/-- What a read at a 32-bit address ought to show: nothing is emulated beyond 16 bits. -/
def flashRead (address size : Nat) : List Byte :=
  if address < 2 ^ 16 then (spiRead (BitVec.ofNat 16 address) size).cells.toList
  else List.replicate size 0xFF

section Address
variable (low high : Byte)

/-- The address that `process_OUT_report` puts together. -/
theorem toNat_address :
    ((high.setWidth 16 <<< 8) ||| low.setWidth 16 : BitVec 16).toNat =
      low.toNat + 2 ^ 8 * high.toNat := by
  have hlow := low.isLt
  have hhigh := high.isLt
  have hshift : (high.setWidth 16 <<< 8 : BitVec 16).toNat = high.toNat <<< 8 := by
    rw [BitVec.toNat_shiftLeft, BitVec.toNat_setWidth, Nat.mod_eq_of_lt (by omega),
      Nat.shiftLeft_eq, Nat.mod_eq_of_lt (by omega), Nat.shiftLeft_eq]
  rw [BitVec.toNat_or, hshift, BitVec.toNat_setWidth, Nat.mod_eq_of_lt (by omega),
    ← Nat.shiftLeft_add_eq_or_of_lt hlow, Nat.shiftLeft_eq]
  omega

theorem setWidth_address :
    ((high.setWidth 16 <<< 8) ||| low.setWidth 16 : BitVec 16).setWidth 8 = low := by
  have hlow := low.isLt
  apply BitVec.eq_of_toNat_eq
  rw [BitVec.toNat_setWidth, toNat_address]
  omega

theorem shift_address :
    (((high.setWidth 16 <<< 8) ||| low.setWidth 16 : BitVec 16) >>> 8).setWidth 8 = high := by
  have hlow := low.isLt
  have hhigh := high.isLt
  apply BitVec.eq_of_toNat_eq
  rw [BitVec.toNat_setWidth, BitVec.toNat_ushiftRight, toNat_address, Nat.shiftRight_eq_div_pow]
  omega

end Address

/-- The answer to a read that fits the buffer, with the address it names. -/
theorem spiAnswer_eq (low high : Byte) {size : Byte} (h : size.toNat ≤ 44) :
    spiAnswer ((high.setWidth 16 <<< 8) ||| low.setWidth 16) size =
      [low, high, 0x00, 0x00, size] ++
        flashRead (low.toNat + 2 ^ 8 * high.toNat) size.toNat := by
  have hlow := low.isLt
  have hhigh := high.isLt
  have hread : flashRead (low.toNat + 2 ^ 8 * high.toNat) size.toNat =
      (spiRead ((high.setWidth 16 <<< 8) ||| low.setWidth 16) size.toNat).cells.toList := by
    rw [flashRead, if_pos (by omega), ← toNat_address, BitVec.ofNat_toNat, BitVec.setWidth_eq]
  have hshort : ∀ answer : List Byte, answer.length < 2 ^ 8 →
      answer.take (answer.length % 2 ^ 8) = answer := by
    intro answer hlen
    rw [Nat.mod_eq_of_lt hlen, List.take_length]
  rw [hread, spiAnswer, setWidth_address, shift_address]
  apply hshort
  simp only [List.length_append, List.length_cons, List.length_nil, Vector.length_toList]
  omega

/-- The packet that answers a read of at most 44 bytes. -/
theorem ResponseManager.spiRead_prepared {r : ResponseManager} (h : r.nextPacketReady = false)
    (mem : Memory) (selected : StandardReport) {data : Vector Byte joystickEpsize} {size : Nat}
    (h₀ : data.get 0 = 0x01) (hsize : 16 < size) (h₁₀ : data.get 10 = subcommandSpiFlashRead)
    (h₁₅ : (data.get 15).toNat ≤ 44) :
    r.Prepared
      (r.counter + counterIncrement,
        [0x21, r.counter + counterIncrement] ++ selected.toBytes ++ [0x90, 0x10] ++
          ([data.get 11, data.get 12, 0x00, 0x00, data.get 15] ++
            flashRead ((data.get 11).toNat + 2 ^ 8 * (data.get 12).toNat) (data.get 15).toNat))
      (r.processOutReport mem selected data size) := by
  have hne : ¬ data.get 0 = 0x80 := by rw [h₀]; decide
  have hprocess : r.processOutReport mem selected data size =
      r.processSubcommand mem selected data :=
    (if_neg hne).trans (if_pos ⟨h₀, hsize⟩)
  have hprepared : r.Prepared
      ((Request.subcommand (data.get 10)
        (((data.get 12).setWidth 16 <<< 8) ||| (data.get 11).setWidth 16)
          (data.get 15)).answer mem selected r.counter)
      (r.processSubcommand mem selected data) := processSubcommand_prepared h mem selected data
  have hack : acknowledgement mem subcommandSpiFlashRead
      (((data.get 12).setWidth 16 <<< 8) ||| (data.get 11).setWidth 16) (data.get 15) =
      (0x90, [data.get 11, data.get 12, 0x00, 0x00, data.get 15] ++
        flashRead ((data.get 11).toNat + 2 ^ 8 * (data.get 12).toNat) (data.get 15).toNat) := by
    rw [← spiAnswer_eq _ _ h₁₅]
    rfl
  simp only [Request.answer, h₁₀, hack] at hprepared
  rw [hprocess]
  exact hprepared

/-- The addresses at which something is emulated. -/
def Emulated (address : Nat) : Prop :=
  address < 2 ^ 16 ∧ flashImage (BitVec.ofNat 16 address) ≠ []

@[simp] theorem length_flashRead (address size : Nat) : (flashRead address size).length = size := by
  unfold flashRead
  split <;> simp

/-- Everything else reads as `0xFF`. -/
theorem flashRead_of_not_emulated {address : Nat} (h : ¬ Emulated address) (size : Nat) :
    flashRead address size = List.replicate size 0xFF := by
  unfold flashRead
  split
  · rename_i hlt
    have himage : flashImage (BitVec.ofNat 16 address) = [] := by
      by_contra hne
      exact h ⟨hlt, hne⟩
    apply List.ext_getElem
    · simp
    · intro j hj hj'
      have hjs : j < size := by simpa using hj
      rw [Vector.getElem_toList, getElem_spiRead _ hjs, himage, List.getD_nil, ite_self,
        List.getElem_replicate]
  · rfl

/-- **SPI reads echo the request** if the upper half of its address is zero, and only then.
For every such report handled with no reply pending, with a size of at most 44. -/
theorem spi_reply_echoes {r : ResponseManager} (h : r.nextPacketReady = false) (mem : Memory)
    (selected : StandardReport) {data : Vector Byte joystickEpsize} {size : Nat}
    (h₀ : data.get 0 = 0x01) (hsize : 16 < size) (h₁₀ : data.get 10 = 0x10)
    (h₁₅ : (data.get 15).toNat ≤ 44) :
    let r' := r.processOutReport mem selected data size
    let address := requestedAddress data
    let s := (data.get 15).toNat
    ((r'.nextPacketReady = true ∧
      r'.replyBuffer.cells.toList =
        [0x21, r.counter + 3] ++ selected.toBytes ++ [0x90, 0x10] ++
          ([data.get 11, data.get 12, data.get 13, data.get 14, data.get 15] ++
            flashRead address s) ++ List.replicate (44 - s) 0) ↔
      data.get 13 = 0 ∧ data.get 14 = 0) ∧
    (¬ Emulated address → flashRead address s = List.replicate s 0xFF) := by
  intro r' address s
  refine ⟨?_, fun hno => flashRead_of_not_emulated hno s⟩
  have hprepared := r.spiRead_prepared h mem selected h₀ hsize h₁₀ h₁₅
  have hcells : r'.replyBuffer.cells.toList =
      [0x21, r.counter + 3] ++ selected.toBytes ++ [0x90, 0x10] ++
        ([data.get 11, data.get 12, 0x00, 0x00, data.get 15] ++
          flashRead ((data.get 11).toNat + 2 ^ 8 * (data.get 12).toNat) s) ++
        List.replicate (44 - s) 0 := by
    rw [hprepared.cells_eq, inPacket, Buffer.toList_padded]
    · congr 2
      simp [joystickEpsize]
      omega
    · simp [joystickEpsize]
      omega
  rw [and_iff_right hprepared.ready, hcells]
  constructor
  · intro heq
    -- both sides have the same length up to the address
    have htail := List.append_cancel_left (List.append_cancel_right heq)
    simp only [List.cons_append, List.cons.injEq] at htail
    obtain ⟨-, -, h₁₃, h₁₄, -⟩ := htail
    exact ⟨h₁₃.symm, h₁₄.symm⟩
  · rintro ⟨h₁₃, h₁₄⟩
    have haddress : address = (data.get 11).toNat + 2 ^ 8 * (data.get 12).toNat := by
      show requestedAddress data = _
      rw [requestedAddress, h₁₃, h₁₄]
      simp
    rw [haddress, h₁₃, h₁₄]

/-- Three bytes of the colours, at `0x6050`. -/
theorem spi_reply_echoes_color :
    let mem : Memory := .zero
    let r : ResponseManager := ⟨Buffer.blank 0, 9, false⟩
    let data : Vector Byte joystickEpsize :=
      switchResponseBuffer [0x01, 0, 0, 0, 0, 0, 0, 0, 0, 0, 0x10, 0x50, 0x60, 0, 0, 3, 0]
    (r.processOutReport mem initializeIdleReport data 17).replyBuffer.cells.toList.drop 13 =
      [0x90, 0x10, 0x50, 0x60, 0x00, 0x00, 3, 0x0A, 0xB9, 0xE6] ++ List.replicate 41 0 := by
  intro mem r data
  have hr : r.nextPacketReady = false := rfl
  have h₀ : data.get 0 = 0x01 := by decide +kernel
  have hsize : 16 < 17 := by decide
  have h₁₀ : data.get 10 = 0x10 := by decide +kernel
  have h₁₅ : (data.get 15).toNat ≤ 44 := by decide +kernel
  have hupper : data.get 13 = 0 ∧ data.get 14 = 0 := by decide +kernel
  obtain ⟨-, hcells⟩ :=
    (spi_reply_echoes hr mem initializeIdleReport h₀ hsize h₁₀ h₁₅).1.mpr hupper
  rw [hcells]
  decide +kernel

/-- The address `0x00016080`, at which nothing is emulated: the reply echoes `0x6080`, and
shows what is there. -/
theorem spi_reply_upper_half_dropped :
    let mem : Memory := .zero
    let r : ResponseManager := ⟨Buffer.blank 0, 9, false⟩
    let data : Vector Byte joystickEpsize :=
      switchResponseBuffer [0x01, 0, 0, 0, 0, 0, 0, 0, 0, 0, 0x10, 0x80, 0x60, 0x01, 0, 2, 0]
    requestedAddress data = 0x16080 ∧ flashRead (requestedAddress data) 2 = [0xFF, 0xFF] ∧
      ((r.processOutReport mem initializeIdleReport data 17).replyBuffer.cells.toList.drop 13).take
        9 = [0x90, 0x10, 0x80, 0x60, 0x00, 0x00, 2, 0x50, 0xFD] := by
  decide +kernel

end XInputSwitch
