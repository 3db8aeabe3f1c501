import Mathlib.Data.List.AList
import XInputSwitch.TextFile
import XInputSwitch.Trace

/-! # The file of the bot's environment

`load_env_file` of the bot reads `.env`, and `update_env_file` of the GUI changes it.  Each
has its own test for the lines that assign something, and takes the key out in its own way;
the two agree on every line (`envKey_eq`).  The reader keeps the first value of a key, and
the writer changes all of them.
-/
namespace XInputSwitch

open Python

/-- Keys with values: an environment, or updates. -/
abbrev EnvMap := AList fun _ : List Char => List Char

/-! ## The reader -/

/-- Key and value, if `load_env_file` takes the line. -/
def envAssignment (rawLine : List Char) : Option (List Char × List Char) :=
  let line := stripList rawLine
  if line = [] ∨ line.head? = some '#' ∨ '=' ∉ line then none
  else
    some (stripList (line.takeWhile (· ≠ '=')),
      stripChar '\x27' (stripChar '"' (stripList (line.dropWhile (· ≠ '=')).tail)))

/-- `os.environ.setdefault(key, value)`. -/
def setDefault (env : EnvMap) (key value : List Char) : EnvMap :=
  if key ∈ env then env else env.insert key value

def loadLine (env : EnvMap) (rawLine : List Char) : EnvMap :=
  match envAssignment rawLine with
  | none => env
  | some (key, value) => setDefault env key value

/-- `load_env_file`, of a file that may not exist. -/
def loadEnvFile (file : Option (List Char)) (env : EnvMap) : EnvMap :=
  match file with
  | none => env
  | some content => Trace.run loadLine env (readLines content)

/-! ## The writer -/

/-- The key, if `update_env_file` takes the line. -/
def envKey (line : List Char) : Option (List Char) :=
  if stripList line = [] ∨ (line.dropWhile isSpace).head? = some '#' ∨ '=' ∉ line then none
  else some (stripList (line.takeWhile (· ≠ '=')))

/-- The line of an assignment. -/
def envLine (key value : List Char) : List Char := key ++ '=' :: value

/-- The loop over the lines, with the keys that were found. -/
def updateLines (updates : EnvMap) : List (List Char) → List (List Char) × List (List Char)
  | [] => ([], [])
  | line :: lines =>
    let (lines, found) := updateLines updates lines
    match envKey line with
    | none => (line :: lines, found)
    | some key =>
      match updates.lookup key with
      | none => (line :: lines, found)
      | some value => (envLine key value :: lines, key :: found)

/-- The lines of the updates that were not found. -/
def missingLines (updates : EnvMap) (found : List (List Char)) : List (List Char) :=
  (updates.entries.filter (·.1 ∉ found)).map fun entry => envLine entry.1 entry.2

/-- The lines after the updates. -/
def updatedLines (updates : EnvMap) (lines : List (List Char)) : List (List Char) :=
  let (lines, found) := updateLines updates lines
  lines ++ missingLines updates found

/-- The lines of a file that may not exist. -/
def fileLines : Option (List Char) → List (List Char)
  | none => []
  | some content => readLines content

/-- `update_env_file`: what is in the file afterwards. -/
def updateEnvFile (linesep : Linesep) (file : Option (List Char)) (updates : EnvMap) :
    List Char :=
  writeLines linesep (updatedLines updates (fileLines file))

/-- The updates of `sync_discord_relay`. -/
def relayUpdates (socketHost socketPort : List Char) : EnvMap :=
  AList.insert "DISCORD_RELAY_HOST".toList socketHost
    (AList.singleton "DISCORD_RELAY_PORT".toList socketPort)

/-! ## Lines -/

theorem not_isSpace_assign : ¬ isSpace '=' = true := by decide

theorem takeWhile_assign {key : List Char} (hkey : '=' ∉ key) (value : List Char) :
    (key ++ '=' :: value).takeWhile (· ≠ '=') = key ∧
      (key ++ '=' :: value).dropWhile (· ≠ '=') = '=' :: value := by
  have hall : ∀ c ∈ key, decide (c ≠ '=') = true := fun c hc =>
    decide_eq_true fun h => hkey (h ▸ hc)
  rw [List.takeWhile_append_of_pos hall, List.dropWhile_append_of_pos hall]
  simp

/-- What the two take from a line in common: nothing from a comment. -/
theorem head_comment (key value : List Char) :
    (key.dropWhile isSpace ++ '=' :: value).head? = some '#' ↔
      (key.dropWhile isSpace).head? = some '#' := by
  cases key.dropWhile isSpace with
  | nil => simp
  | cons c key => simp

theorem envAssignment_assign {key : List Char} (hkey : '=' ∉ key) (value : List Char) :
    envAssignment (key ++ '=' :: value) =
      if (key.dropWhile isSpace).head? = some '#' then none
      else some (stripList key, stripChar '\x27' (stripChar '"' (stripList value))) := by
  have hdrop : '=' ∉ key.dropWhile isSpace := fun h => hkey ((List.dropWhile_sublist _).subset h)
  obtain ⟨htake, hrest⟩ := takeWhile_assign hdrop (value.rdropWhile isSpace)
  have hstrip : stripList (key.dropWhile isSpace) = stripList key := by
    unfold stripList
    rw [List.dropWhile_idempotent]
  simp only [envAssignment, stripList_append_cons not_isSpace_assign, head_comment, htake, hrest,
    List.tail_cons, hstrip, stripList_rdropWhile]
  simp

theorem envKey_assign {key : List Char} (hkey : '=' ∉ key) (value : List Char) :
    envKey (key ++ '=' :: value) =
      if (key.dropWhile isSpace).head? = some '#' then none else some (stripList key) := by
  simp only [envKey, dropWhile_append_cons not_isSpace_assign, head_comment,
    stripList_append_cons not_isSpace_assign, (takeWhile_assign hkey value).1]
  simp

/-- **The reader and the writer agree** on which lines assign, and to which key. -/
theorem envKey_eq (line : List Char) : envKey line = (envAssignment line).map Prod.fst := by
  by_cases hassign : '=' ∈ line
  · obtain ⟨key, value, rfl, hkey⟩ := List.eq_append_cons_of_mem hassign
    rw [envKey_assign hkey, envAssignment_assign hkey]
    split <;> rfl
  · have hstrip : '=' ∉ stripList line := fun h => hassign ((stripList_sublist line).subset h)
    simp [envKey, envAssignment, hassign, hstrip]

/-! ## What is read -/

/-- The assignments of the lines, in order. -/
def envAssignments (lines : List (List Char)) : List (List Char × List Char) :=
  lines.filterMap envAssignment

theorem envAssignments_append (lines lines' : List (List Char)) :
    envAssignments (lines ++ lines') = envAssignments lines ++ envAssignments lines' :=
  List.filterMap_append

theorem lookup_setDefault (env : EnvMap) (key value key' : List Char) :
    (setDefault env key value).lookup key' =
      (env.lookup key').or (if key' = key then some value else none) := by
  unfold setDefault
  split
  · rename_i hmem
    by_cases heq : key' = key
    · subst heq
      obtain ⟨old, hold⟩ := Option.isSome_iff_exists.mp (AList.lookup_isSome.mpr hmem)
      rw [hold, Option.some_or]
    · rw [if_neg heq, Option.or_none]
  · rename_i hmem
    by_cases heq : key' = key
    · subst heq
      rw [AList.lookup_insert, if_pos rfl, AList.lookup_eq_none.mpr hmem, Option.none_or]
    · rw [AList.lookup_insert_ne heq, if_neg heq, Option.or_none]

/-- A key that the environment does not have gets its first value. -/
theorem lookup_loadLines (lines : List (List Char)) (env : EnvMap) (key : List Char) :
    (Trace.run loadLine env lines).lookup key =
      (env.lookup key).or ((envAssignments lines).lookup key) := by
  induction lines generalizing env with
  | nil => exact Option.or_none.symm
  | cons line lines ih =>
    rw [Trace.run_cons, ih]
    cases hline : envAssignment line with
    | none => simp only [loadLine, envAssignments, List.filterMap_cons, hline]
    | some assignment =>
      obtain ⟨key', value⟩ := assignment
      simp only [loadLine, envAssignments, List.filterMap_cons, hline, lookup_setDefault,
        Option.or_assoc, List.lookup_cons]
      by_cases heq : key = key'
      · simp [heq]
      · simp [heq, beq_eq_false_iff_ne.mpr heq]

/-! ## What is written -/

/-- A key that can be written. -/
structure EnvKey (key : List Char) : Prop where
  ne_nil : key ≠ []
  trimmed : stripList key = key
  assign_not_mem : '=' ∉ key
  comment : key.head? ≠ some '#'
  one_line : OneLine key

/-- A value that can be written. -/
structure EnvValue (value : List Char) : Prop where
  trimmed : stripList value = value
  one_line : OneLine value
  head_quote : value.head? ≠ some '"' ∧ value.head? ≠ some '\x27'
  last_quote : value.getLast? ≠ some '"' ∧ value.getLast? ≠ some '\x27'

/-- What is written is read. -/
theorem envAssignment_envLine {key value : List Char} (hkey : EnvKey key)
    (hvalue : EnvValue value) : envAssignment (envLine key value) = some (key, value) := by
  have hdouble : stripChar '"' value = value :=
    stripChar_of_ends hvalue.head_quote.1 hvalue.last_quote.1
  have hsingle : stripChar '\x27' value = value :=
    stripChar_of_ends hvalue.head_quote.2 hvalue.last_quote.2
  rw [envLine, envAssignment_assign hkey.assign_not_mem, (dropWhile_of_stripList hkey.trimmed).1,
    if_neg hkey.comment, hkey.trimmed, hvalue.trimmed, hdouble, hsingle]

section Updates
variable {updates : EnvMap} {lines : List (List Char)}

theorem mem_of_envLookup {key value : List Char} (h : updates.lookup key = some value) :
    key ∈ updates :=
  AList.lookup_isSome.mp (Option.isSome_of_eq_some h)

/-- One pass of the loop. -/
def updateLine (updates : EnvMap) (line : List Char) : List Char :=
  match envKey line with
  | none => line
  | some key =>
    match updates.lookup key with
    | none => line
    | some value => envLine key value

theorem updateLine_eq {line key value : List Char} (hkey : envKey line = some key)
    (hvalue : updates.lookup key = some value) : updateLine updates line = envLine key value := by
  simp only [updateLine, hkey, hvalue]

theorem updateLine_cases (updates : EnvMap) (line : List Char) :
    (∃ key value, envKey line = some key ∧ updates.lookup key = some value ∧
        updateLine updates line = envLine key value) ∨
      (∀ key, envKey line = some key → updates.lookup key = none) ∧
        updateLine updates line = line := by
  cases hkey : envKey line with
  | none => exact .inr ⟨by simp, by simp only [updateLine, hkey]⟩
  | some key =>
    cases hvalue : updates.lookup key with
    | none => exact .inr ⟨by simpa using hvalue, by simp only [updateLine, hkey, hvalue]⟩
    | some value => exact .inl ⟨key, value, rfl, hvalue, updateLine_eq hkey hvalue⟩

theorem updateLines_fst (updates : EnvMap) (lines : List (List Char)) :
    (updateLines updates lines).1 = lines.map (updateLine updates) := by
  induction lines with
  | nil => rfl
  | cons line lines ih =>
    rw [List.map_cons, ← ih]
    cases hkey : envKey line with
    | none => simp only [updateLines, updateLine, hkey]
    | some key =>
      cases hvalue : updates.lookup key with
      | none => simp only [updateLines, updateLine, hkey, hvalue]
      | some value => simp only [updateLines, updateLine, hkey, hvalue]

theorem mem_updateLines_snd {key : List Char} :
    key ∈ (updateLines updates lines).2 ↔
      key ∈ updates ∧ ∃ line ∈ lines, envKey line = some key := by
  induction lines with
  | nil => simp [updateLines]
  | cons line lines ih =>
    simp only [List.mem_cons, exists_eq_or_imp]
    cases hkey : envKey line with
    | none => simp [updateLines, hkey, ih]
    | some key' =>
      cases hvalue : updates.lookup key' with
      | none =>
        have hnot : key' ∉ updates := AList.lookup_eq_none.mp hvalue
        simp only [updateLines, hkey, hvalue, ih, Option.some.injEq]
        grind
      | some value =>
        have hmem : key' ∈ updates := mem_of_envLookup hvalue
        simp only [updateLines, hkey, hvalue, List.mem_cons, ih, Option.some.injEq]
        grind

theorem updatedLines_eq (updates : EnvMap) (lines : List (List Char)) :
    updatedLines updates lines =
      lines.map (updateLine updates) ++ missingLines updates (updateLines updates lines).2 := by
  rw [← updateLines_fst]
  rfl

theorem mem_missingLines {line : List Char} {found : List (List Char)} :
    line ∈ missingLines updates found ↔
      ∃ key value, updates.lookup key = some value ∧ key ∉ found ∧ line = envLine key value := by
  constructor
  · intro h
    obtain ⟨⟨key, value⟩, hentry, rfl⟩ := List.mem_map.mp h
    obtain ⟨hentry, hfound⟩ := List.mem_filter.mp hentry
    exact ⟨key, value, AList.mem_lookup_iff.mpr hentry, of_decide_eq_true hfound, rfl⟩
  · rintro ⟨key, value, hvalue, hfound, rfl⟩
    refine List.mem_map.mpr ⟨⟨key, value⟩, List.mem_filter.mpr ?_, rfl⟩
    exact ⟨AList.mem_lookup_iff.mp hvalue, decide_eq_true hfound⟩

/-- Every update has its line. -/
theorem envLine_mem_updatedLines {key value : List Char}
    (hvalue : updates.lookup key = some value) (lines : List (List Char)) :
    envLine key value ∈ updatedLines updates lines := by
  rw [updatedLines_eq, List.mem_append]
  by_cases hfound : key ∈ (updateLines updates lines).2
  · obtain ⟨-, line, hline, hkey⟩ := mem_updateLines_snd.mp hfound
    exact .inl (List.mem_map.mpr ⟨line, hline, updateLine_eq hkey hvalue⟩)
  · exact .inr (mem_missingLines.mpr ⟨key, value, hvalue, hfound, rfl⟩)

/-- And every other line is an old one. -/
theorem mem_updatedLines {line : List Char} (h : line ∈ updatedLines updates lines) :
    (∃ key value, updates.lookup key = some value ∧ line = envLine key value) ∨
      line ∈ lines ∧ ∀ key, envKey line = some key → updates.lookup key = none := by
  rw [updatedLines_eq] at h
  rcases List.mem_append.mp h with h | h
  · obtain ⟨line, hline, rfl⟩ := List.mem_map.mp h
    rcases updateLine_cases updates line with ⟨key, value, -, hvalue, hupdate⟩ | ⟨hother, hupdate⟩
    · exact .inl ⟨key, value, hvalue, hupdate⟩
    · rw [hupdate]
      exact .inr ⟨hline, hother⟩
  · obtain ⟨key, value, hvalue, -, rfl⟩ := mem_missingLines.mp h
    exact .inl ⟨key, value, hvalue, rfl⟩

/-- A file that nothing is written to had no lines. -/
theorem updatedLines_blank (h : updatedLines updates lines = []) :
    updatedLines updates [[]] = [[]] := by
  rw [updatedLines_eq, List.append_eq_nil_iff, List.map_eq_nil_iff] at h
  obtain ⟨rfl, hmissing⟩ := h
  have hfound : (updateLines updates [[]]).2 = [] := rfl
  rw [updatedLines_eq, hfound]
  show [[]] ++ missingLines updates [] = [[]]
  rw [show missingLines updates [] = [] from hmissing, List.append_nil]

/-! ## Updates that can be written -/

variable (hupdates : ∀ key value, updates.lookup key = some value → EnvKey key ∧ EnvValue value)
include hupdates

theorem envAssignment_update {key value : List Char} (hvalue : updates.lookup key = some value) :
    envAssignment (envLine key value) = some (key, value) :=
  envAssignment_envLine (hupdates key value hvalue).1 (hupdates key value hvalue).2

theorem envKey_update {key value : List Char} (hvalue : updates.lookup key = some value) :
    envKey (envLine key value) = some key := by
  rw [envKey_eq, envAssignment_update hupdates hvalue]
  rfl

theorem updatedLines_forall (hlines : ∀ line ∈ lines, OneLine line) :
    ∀ line ∈ updatedLines updates lines, OneLine line := by
  intro line hline
  rcases mem_updatedLines hline with ⟨key, value, hvalue, rfl⟩ | ⟨hline, -⟩
  · obtain ⟨hkey, hvalue⟩ := hupdates key value hvalue
    exact List.forall_mem_append.mpr ⟨hkey.one_line,
      List.forall_mem_cons.mpr ⟨by decide, hvalue.one_line⟩⟩
  · exact hlines line hline

/-- **Every update is read**, since all the lines of its key have its value. -/
theorem lookup_updated {key value : List Char} (hvalue : updates.lookup key = some value)
    (lines : List (List Char)) :
    (envAssignments (updatedLines updates lines)).lookup key = some value := by
  refine lookup_of_forall ?_ fun value' hmem => ?_
  · exact List.mem_filterMap.mpr
      ⟨_, envLine_mem_updatedLines hvalue lines, envAssignment_update hupdates hvalue⟩
  · obtain ⟨line, hline, hassign⟩ := List.mem_filterMap.mp hmem
    rcases mem_updatedLines hline with ⟨key', value'', hvalue', rfl⟩ | ⟨-, hother⟩
    · rw [envAssignment_update hupdates hvalue'] at hassign
      cases hassign
      exact Option.some.inj (hvalue'.symm.trans hvalue)
    · have hnone := hother key (by rw [envKey_eq, hassign]; rfl)
      rw [hvalue] at hnone
      cases hnone

/-- The lines of other keys stay where they are. -/
theorem lookup_map_updateLine {key : List Char} (hkey : key ∉ updates) (lines : List (List Char)) :
    (envAssignments (lines.map (updateLine updates))).lookup key =
      (envAssignments lines).lookup key := by
  induction lines with
  | nil => rfl
  | cons line lines ih =>
    unfold envAssignments at ih ⊢
    rw [List.map_cons, List.filterMap_cons, List.filterMap_cons]
    rcases updateLine_cases updates line with ⟨key', value, hline, hvalue, hupdate⟩ | ⟨-, hupdate⟩
    · -- the key of a line that changes is another one, before and after
      have hne : (key == key') = false :=
        beq_eq_false_iff_ne.mpr fun heq => hkey (heq ▸ mem_of_envLookup hvalue)
      rw [envKey_eq] at hline
      obtain ⟨⟨_, old⟩, hold, rfl⟩ := Option.map_eq_some_iff.mp hline
      rw [hupdate, envAssignment_update hupdates hvalue, hold]
      simp only [List.lookup_cons, hne, ih]
    · rw [hupdate]
      cases envAssignment line with
      | none => exact ih
      | some assignment =>
        obtain ⟨key', value⟩ := assignment
        simp only [List.lookup_cons, ih]

/-- **Nothing else changes.** -/
theorem lookup_other {key : List Char} (hkey : key ∉ updates) (lines : List (List Char)) :
    (envAssignments (updatedLines updates lines)).lookup key =
      (envAssignments lines).lookup key := by
  have hmissing : (envAssignments (missingLines updates (updateLines updates lines).2)).lookup key =
      none := by
    refine List.lookup_eq_none_iff.mpr fun assignment hmem => ?_
    obtain ⟨line, hline, hassign⟩ := List.mem_filterMap.mp hmem
    obtain ⟨key', value, hvalue, -, rfl⟩ := mem_missingLines.mp hline
    rw [envAssignment_update hupdates hvalue] at hassign
    cases hassign
    exact bne_iff_ne.mpr fun heq => hkey (heq ▸ mem_of_envLookup hvalue)
  rw [updatedLines_eq, envAssignments_append, List.lookup_append, hmissing, Option.or_none,
    lookup_map_updateLine hupdates hkey]

/-- **Updates that were made change nothing.** -/
theorem updatedLines_updatedLines (lines : List (List Char)) :
    updatedLines updates (updatedLines updates lines) = updatedLines updates lines := by
  have hlines : (updatedLines updates lines).map (updateLine updates) =
      updatedLines updates lines := by
    refine (List.map_congr_left fun line hline => ?_).trans (List.map_id _)
    rcases mem_updatedLines hline with ⟨key, value, hvalue, rfl⟩ | ⟨-, hother⟩
    · exact updateLine_eq (envKey_update hupdates hvalue) hvalue
    · rcases updateLine_cases updates line with ⟨key, value, hline, hvalue, -⟩ | ⟨-, hupdate⟩
      · rw [hother key hline] at hvalue
        cases hvalue
      · exact hupdate
  have hmissing : missingLines updates (updateLines updates (updatedLines updates lines)).2 =
      [] := by
    refine List.eq_nil_iff_forall_not_mem.mpr fun line hline => ?_
    obtain ⟨key, value, hvalue, hfound, -⟩ := mem_missingLines.mp hline
    exact hfound (mem_updateLines_snd.mpr ⟨mem_of_envLookup hvalue, _,
      envLine_mem_updatedLines hvalue lines, envKey_update hupdates hvalue⟩)
  rw [updatedLines_eq updates (updatedLines updates lines), hlines, hmissing, List.append_nil]

end Updates

/-- A file of no lines is read as one empty line, which assigns nothing. -/
theorem envAssignments_readLines (linesep : Linesep) {lines : List (List Char)}
    (hlines : ∀ line ∈ lines, OneLine line) :
    envAssignments (readLines (writeLines linesep lines)) = envAssignments lines := by
  rw [readLines_writeLines linesep hlines]
  split
  · subst lines
    rfl
  · rfl

theorem lookup_loadEnvFile (file : Option (List Char)) (env : EnvMap) (key : List Char) :
    (loadEnvFile file env).lookup key =
      (env.lookup key).or ((envAssignments (fileLines file)).lookup key) := by
  cases file with
  | none => exact Option.or_none.symm
  | some content => exact lookup_loadLines _ env key

theorem fileLines_forall (file : Option (List Char)) :
    ∀ line ∈ fileLines file, OneLine line := by
  cases file with
  | none => simp [fileLines]
  | some content => exact splitlines_forall _

/-- **The GUI and the bot agree.**  After any updates that can be written, of any file, the
bot reads each updated key with its new value and every other key with its old one, and the
same updates do not change the file again. -/
theorem env_file_agrees (linesep : Linesep) (file : Option (List Char)) (updates : EnvMap)
    (hupdates : ∀ key value, updates.lookup key = some value → EnvKey key ∧ EnvValue value)
    (env : EnvMap) (henv : ∀ key ∈ updates, key ∉ env) :
    let written := updateEnvFile linesep file updates
    (∀ key value, updates.lookup key = some value →
      (loadEnvFile (some written) env).lookup key = some value) ∧
    (∀ key, key ∉ updates →
      (loadEnvFile (some written) env).lookup key = (loadEnvFile file env).lookup key) ∧
    updateEnvFile linesep (some written) updates = written := by
  intro written
  have hlines := updatedLines_forall hupdates (fileLines_forall file)
  have hread : envAssignments (fileLines (some written)) =
      envAssignments (updatedLines updates (fileLines file)) :=
    envAssignments_readLines linesep hlines
  refine ⟨fun key value hvalue => ?_, fun key hkey => ?_, ?_⟩
  · have hnone := AList.lookup_eq_none.mpr (henv key (mem_of_envLookup hvalue))
    rw [lookup_loadEnvFile, hread, lookup_updated hupdates hvalue, hnone, Option.none_or]
  · rw [lookup_loadEnvFile, lookup_loadEnvFile, hread, lookup_other hupdates hkey]
  · show writeLines linesep (updatedLines updates (readLines written)) = written
    rw [show readLines written = _ from readLines_writeLines linesep hlines]
    split
    · rename_i hnil
      rw [updatedLines_blank hnil, writeLines_nil, ← hnil]
      rfl
    · rw [updatedLines_updatedLines hupdates]
      rfl

/-- The GUI writes nothing else, if host and port can be written. -/
theorem relayUpdates_writable {socketHost socketPort : List Char} (hhost : EnvValue socketHost)
    (hport : EnvValue socketPort) (key value : List Char)
    (h : (relayUpdates socketHost socketPort).lookup key = some value) :
    EnvKey key ∧ EnvValue value := by
  unfold relayUpdates at h
  by_cases hkey : key = "DISCORD_RELAY_HOST".toList
  · subst hkey
    rw [AList.lookup_insert] at h
    cases h
    exact ⟨by constructor <;> decide, hhost⟩
  · rw [AList.lookup_insert_ne hkey] at h
    have hmem : (⟨key, value⟩ : Sigma fun _ : List Char => List Char) ∈
        [⟨"DISCORD_RELAY_PORT".toList, socketPort⟩] := AList.mem_lookup_iff.mp h
    cases List.mem_singleton.mp hmem
    exact ⟨by constructor <;> decide, hport⟩

/-- A file from Windows with a comment, two hosts and a token in quotation marks. -/
theorem env_file_agrees_relay :
    let file := ("# relay\r\n DISCORD_RELAY_HOST = 'old'\r\n\r\n" ++
      "DISCORD_BOT_TOKEN=\"t\"\r\nDISCORD_RELAY_HOST=older").toList
    let updates := relayUpdates "10.0.0.5".toList "8765".toList
    let written := updateEnvFile .crlf (some file) updates
    written = ("# relay\r\nDISCORD_RELAY_HOST=10.0.0.5\r\n\r\nDISCORD_BOT_TOKEN=\"t\"\r\n" ++
      "DISCORD_RELAY_HOST=10.0.0.5\r\nDISCORD_RELAY_PORT=8765\r\n").toList ∧
    (loadEnvFile (some written) ∅).lookup "DISCORD_RELAY_HOST".toList = some "10.0.0.5".toList ∧
    (loadEnvFile (some written) ∅).lookup "DISCORD_BOT_TOKEN".toList =
      (loadEnvFile (some file) ∅).lookup "DISCORD_BOT_TOKEN".toList ∧
    updateEnvFile .crlf (some written) updates = written := by
  intro file updates written
  have hhost : EnvValue "10.0.0.5".toList := by constructor <;> decide
  have hport : EnvValue "8765".toList := by constructor <;> decide
  obtain ⟨hupdated, hother, hagain⟩ := env_file_agrees .crlf (some file) updates
    (relayUpdates_writable hhost hport) ∅ fun _ _ => AList.notMem_empty _
  exact ⟨by decide +kernel, hupdated _ _ (by decide +kernel), hother _ (by decide +kernel), hagain⟩

end XInputSwitch
