import XInputSwitch.JsonCut
import XInputSwitch.Launchers
import XInputSwitch.TextFile

/-! # The settings file

`load_settings` and `save_settings` of `SwitchAutomationGui.py` down to the characters of the
file, and the window that uses them.  A dictionary is the list of its entries, in the order of
their insertion, which is the order `json.dump` writes them in; `collectEntries_agree` connects it
to the dictionaries of `Settings`.

`save_settings` opens the file for writing, so a process that ends in the middle of it leaves a
file that is cut off, and the settings before it are gone.  A cut file is never taken for other
settings: it is refused as a whole, and the defaults are shown (`settings_last_save`).  What the
window shows after a reload, it saves again unchanged (`settings_reload_save`).  That the system
refuses to read or to write the file (`OSError`) is not among the events.
-/
namespace XInputSwitch

open Python (Value Numerals Linesep)
open Python.Json (setKey)

/-! ## The functions -/

/-- `collect_settings`, with the order of the entries. -/
def collectEntries (nums : Numerals) (paths : GuiPaths) (vars : GuiVars) :
    Option (List (String × Value)) :=
  (guiFields paths).foldlM
    (fun settings field =>
      (field.2.read nums vars field.1).map fun value => setKey settings (field.1, value))
    (defaultEntries paths)

/-- What `save_settings` writes: `json.dump(settings, handle, indent=2)` and a line end. -/
def settingsText (nums : Python.Json.Numbers) (settings : List (String × Value)) : List Char :=
  Python.Json.write nums .indented 0 (.dict settings) ++ ['\n']

/-- `save_settings`, to what is in the file. -/
def saveSettings (nums : Python.Json.Numbers) (linesep : Linesep)
    (settings : List (String × Value)) : List Char :=
  Python.writeText linesep (settingsText nums settings)

/-- `load_settings`, from what is in the file.  A file that is not there, is no JSON or is no
dictionary changes nothing. -/
def loadFile (nums : Numerals) (paths : GuiPaths) (file : Option (List Char)) :
    List (String × Value) :=
  match file.bind fun content => Python.Json.parse nums (Python.readText content) with
  | some (.dict loaded) => loaded.foldl setKey (defaultEntries paths)
  | _ => defaultEntries paths

/-- The loop of `reload_settings`. -/
def GuiVars.setAll (nums : Numerals) (paths : GuiPaths) (vars : GuiVars)
    (settings : List (String × Value)) : GuiVars :=
  settings.foldl (fun vars e => vars.set nums paths e.1 e.2) vars

/-- `reload_settings`, from what is in the file. -/
def reloadFile (nums : Numerals) (paths : GuiPaths) (vars : GuiVars)
    (file : Option (List Char)) : GuiVars :=
  vars.setAll nums paths (loadFile nums paths file)

/-- `save_current`: what it writes, if no number is refused. -/
def saveFile (nums : Python.Json.Numbers) (paths : GuiPaths) (linesep : Linesep)
    (vars : GuiVars) : Option (List Char) :=
  (collectEntries nums.toNumerals paths vars).map (saveSettings nums linesep)

/-! ## The window -/

/-- The widgets, and the file. -/
structure SettingsWindow where
  vars : GuiVars
  file : Option (List Char)

inductive SettingsEvent where
  /-- the user changes what the widgets hold -/
  | edit (vars : GuiVars)
  | reload
  | save
  /-- the process ends, and is started again -/
  | restart
  /-- the same in the middle of a save, when so many characters are in the file -/
  | crash (written : Nat)

namespace SettingsWindow

/-- The window comes up: new variables, then `reload_settings`. -/
def started (nums : Numerals) (paths : GuiPaths) (file : Option (List Char)) : SettingsWindow :=
  ⟨reloadFile nums paths ⟨fun _ => "", fun _ => false⟩ file, file⟩

def next (nums : Python.Json.Numbers) (paths : GuiPaths) (linesep : Linesep)
    (s : SettingsWindow) : SettingsEvent → SettingsWindow
  | .edit vars => { s with vars := vars }
  | .reload => { s with vars := reloadFile nums.toNumerals paths s.vars s.file }
  | .save => { s with file := (saveFile nums paths linesep s.vars).or s.file }
  | .restart => started nums.toNumerals paths s.file
  | .crash written =>
    started nums.toNumerals paths
      (((saveFile nums paths linesep s.vars).map (List.take written)).or s.file)

/-- The settings a step saves, and whether all of the file is written. -/
def saves (nums : Python.Json.Numbers) (paths : GuiPaths) (s : SettingsWindow) :
    SettingsEvent → List (List (String × Value) × Bool)
  | .save => ((collectEntries nums.toNumerals paths s.vars).map (·, true)).toList
  | .crash _ => ((collectEntries nums.toNumerals paths s.vars).map (·, false)).toList
  | .edit _ | .reload | .restart => []

end SettingsWindow

/-! ## What is collected -/

section Collect
variable {nums : Numerals} {paths : GuiPaths} {vars : GuiVars}

/-- The same dictionary, in two forms. -/
def Agree (entries : List (String × Value)) (settings : Settings) : Prop :=
  ∀ key, entries.lookup key = settings.lookup key

theorem agree_default (paths : GuiPaths) : Agree (defaultEntries paths) (defaultSettings paths) :=
  fun key => (defaultSettings_lookup paths key).symm

theorem Agree.setKey {entries : List (String × Value)} {settings : Settings}
    (h : Agree entries settings) (key : String) (value : Value) :
    Agree (setKey entries (key, value)) (settings.insert key value) := by
  intro key'
  rw [Python.Json.lookup_setKey]
  split
  · rename_i hkey
    obtain rfl : key' = key := hkey
    rw [AList.lookup_insert]
  · rename_i hkey
    rw [AList.lookup_insert_ne hkey, h key']

theorem foldlM_agree {entries : List (String × Value)} {settings : Settings}
    (h : Agree entries settings) (fields : List (String × FieldRule)) :
    Option.Rel Agree
      (fields.foldlM (fun settings field => (field.2.read nums vars field.1).map fun value =>
        Python.Json.setKey settings (field.1, value)) entries)
      (fields.foldlM (fun settings field => (field.2.read nums vars field.1).map fun value =>
        AList.insert field.1 value settings) settings) := by
  induction fields generalizing entries settings with
  | nil => exact .some h
  | cons field fields ih =>
    rw [List.foldlM_cons, List.foldlM_cons]
    cases field.2.read nums vars field.1 with
    | none => exact .none
    | some value => exact ih (h.setKey field.1 value)

/-- The two models of `collect_settings`. -/
theorem collectEntries_agree (nums : Numerals) (paths : GuiPaths) (vars : GuiVars) :
    Option.Rel Agree (collectEntries nums paths vars) (collectSettings nums paths vars) :=
  foldlM_agree (agree_default paths) (guiFields paths)

theorem foldlM_keys {fields : List (String × FieldRule)} {base entries : List (String × Value)}
    (hfields : ∀ field ∈ fields, field.1 ∈ base.map Prod.fst)
    (h : fields.foldlM (fun settings field => (field.2.read nums vars field.1).map fun value =>
      Python.Json.setKey settings (field.1, value)) base = some entries) :
    entries.map Prod.fst = base.map Prod.fst := by
  induction fields generalizing base with
  | nil =>
    obtain rfl := Option.some.inj h
    rfl
  | cons field fields ih =>
    obtain ⟨hfield, hfields⟩ := List.forall_mem_cons.mp hfields
    rw [List.foldlM_cons] at h
    cases hread : field.2.read nums vars field.1 with
    | none =>
      rw [hread] at h
      cases h
    | some value =>
      rw [hread] at h
      have hkeys : (Python.Json.setKey base (field.1, value)).map Prod.fst = base.map Prod.fst :=
        Python.Json.keys_setKey hfield
      rw [ih (by rwa [hkeys]) h, hkeys]

end Collect

/-! ## What a collected dictionary looks like -/

/-- The keys of the defaults in their order, each with a value of its type. -/
structure Collected (paths : GuiPaths) (entries : List (String × Value)) : Prop where
  keys : entries.map Prod.fst = (defaultEntries paths).map Prod.fst
  fits : ∀ field ∈ guiFields paths, ∃ value,
    entries.lookup field.1 = some value ∧ field.2.Fits value
  playniteMode : entries.lookup "playniteMode" = some (.str "controller")

section Collected
variable {nums : Numerals} {paths : GuiPaths} {vars : GuiVars} {entries : List (String × Value)}

theorem FieldRule.Fits.dumpable {rule : FieldRule} {value : Value} (h : rule.Fits value) :
    Python.Json.Dumpable value := by
  cases value with
  | int n =>
    cases rule with
    | slot | int => exact h
    | _ => cases h
  | list | dict => cases rule <;> cases h
  | _ => trivial

theorem guiFields_mem_keys (paths : GuiPaths) :
    ∀ field ∈ guiFields paths, field.1 ∈ (defaultEntries paths).map Prod.fst := by
  intro field hfield
  obtain ⟨value, hvalue, -⟩ := defaultEntries_fits paths field hfield
  exact List.mem_map_of_mem (Python.mem_of_lookup hvalue)

theorem nodup_defaultEntries (paths : GuiPaths) :
    ((defaultEntries paths).map Prod.fst).Nodup := by
  simp [defaultEntries]

theorem collected_default (paths : GuiPaths) : Collected paths (defaultEntries paths) where
  keys := rfl
  fits := defaultEntries_fits paths
  playniteMode := rfl

theorem collected_of_collect (h : collectEntries nums paths vars = some entries) :
    Collected paths entries := by
  have hagree := collectEntries_agree nums paths vars
  rw [h] at hagree
  cases hsettings : collectSettings nums paths vars with
  | none =>
    rw [hsettings] at hagree
    cases hagree
  | some settings =>
    rw [hsettings] at hagree
    obtain ⟨hagree⟩ := hagree
    obtain ⟨hfits, hmode⟩ := collectSettings_fits hsettings
    refine ⟨foldlM_keys (guiFields_mem_keys paths) h, fun field hfield => ?_, ?_⟩
    · rw [hagree]
      exact hfits field hfield
    · rw [hagree, hmode]

namespace Collected
variable (h : Collected paths entries)
include h

theorem nodup : (entries.map Prod.fst).Nodup := by
  rw [h.keys]
  exact nodup_defaultEntries paths

theorem lookup_of_mem {key : String} {value : Value} (hmem : (key, value) ∈ entries) :
    entries.lookup key = some value :=
  Python.lookup_of_forall hmem fun _ hmem' =>
    (Prod.mk.inj (List.inj_on_of_nodup_map h.nodup hmem' hmem rfl)).2

/-- Every entry has a widget, or is `playniteMode`. -/
theorem field_or_playniteMode {e : String × Value} (he : e ∈ entries) :
    (∃ field ∈ guiFields paths, field.1 = e.1 ∧ field.2.Fits e.2) ∨
      e = ("playniteMode", .str "controller") := by
  have hlookup := h.lookup_of_mem he
  by_cases hfield : e.1 ∈ (guiFields paths).map Prod.fst
  · obtain ⟨field, hfield, hkey⟩ := List.mem_map.mp hfield
    obtain ⟨value, hvalue, hfits⟩ := h.fits field hfield
    rw [hkey, hlookup] at hvalue
    obtain rfl := Option.some.inj hvalue
    exact .inl ⟨field, hfield, hkey, hfits⟩
  · have hkey : e.1 ∈ (defaultEntries paths).map Prod.fst := by
      rw [← h.keys]
      exact List.mem_map_of_mem he
    obtain ⟨d, hd, hname⟩ := List.mem_map.mp hkey
    have hmode := defaultEntries_playniteMode paths d hd (by rwa [hname])
    have hname' : e.1 = "playniteMode" := by rw [← hname, hmode]
    rw [hname', h.playniteMode] at hlookup
    exact .inr (Prod.ext hname' (Option.some.inj hlookup).symm)

theorem dumpable : Python.Json.Dumpable (.dict entries) := by
  refine ⟨h.nodup, Python.Json.dumpableEntries_of_forall fun e he => ?_⟩
  rcases h.field_or_playniteMode he with ⟨field, -, -, hfits⟩ | rfl
  · exact hfits.dumpable
  · trivial

/-- The widgets decide. -/
theorem eq_of_lookup {entries' : List (String × Value)} (h' : Collected paths entries')
    (hlookup : ∀ field ∈ guiFields paths, entries.lookup field.1 = entries'.lookup field.1) :
    entries = entries' := by
  refine Python.Json.eq_of_keys (h.keys.trans h'.keys.symm) h'.nodup fun e he => ?_
  refine Python.mem_of_lookup ?_
  rcases h.field_or_playniteMode he with ⟨field, hfield, hkey, -⟩ | rfl
  · rw [← hkey, ← hlookup field hfield, hkey, h.lookup_of_mem he]
  · exact h'.playniteMode

/-- After a reload, every widget shows its entry. -/
theorem setAll_shows (nums : Numerals) (vars : GuiVars) {field : String × FieldRule}
    (hfield : field ∈ guiFields paths) {value : Value}
    (hvalue : entries.lookup field.1 = some value) :
    (vars.setAll nums paths entries).Shows nums field.1 value field.2 := by
  let pair (e : String × Value) : (_ : String) × Value := ⟨e.1, e.2⟩
  have hall : vars.setAll nums paths entries =
      (entries.map pair).foldl (fun vars e => vars.set nums paths e.1 e.2) vars := by
    rw [List.foldl_map]
    rfl
  have hkeys : (entries.map pair).NodupKeys := by
    rw [List.NodupKeys, List.keys, List.map_map]
    exact h.nodup
  rw [hall]
  exact foldl_set_shows hkeys (List.mem_map_of_mem (Python.mem_of_lookup hvalue))
    (guiFields_lookup paths field hfield)

/-- **What was shown is collected again.** -/
theorem collect_setAll (nums : Numerals) (vars : GuiVars) :
    collectEntries nums paths (vars.setAll nums paths entries) = some entries := by
  let values (key : String) : Value := (entries.lookup key).getD .none
  have hread : ∀ field ∈ guiFields paths,
      field.2.read nums (vars.setAll nums paths entries) field.1 = some (values field.1) := by
    intro field hfield
    obtain ⟨value, hvalue, hfits⟩ := h.fits field hfield
    simp only [values, hvalue]
    exact FieldRule.read_of_fits hfits (h.setAll_shows nums vars hfield hvalue)
  obtain ⟨saved, hsaved, hlookup⟩ := collect_lookup (defaultSettings paths) hread
  have hagree := collectEntries_agree nums paths (vars.setAll nums paths entries)
  have hcollect : collectSettings nums paths (vars.setAll nums paths entries) = some saved := hsaved
  rw [hcollect] at hagree
  cases hentries : collectEntries nums paths (vars.setAll nums paths entries) with
  | none =>
    rw [hentries] at hagree
    cases hagree
  | some entries' =>
    rw [hentries] at hagree
    obtain ⟨hagree⟩ := hagree
    refine congrArg some ((collected_of_collect hentries).eq_of_lookup h fun field hfield => ?_)
    obtain ⟨value, hvalue, -⟩ := h.fits field hfield
    rw [hagree, hlookup, if_pos (List.mem_map_of_mem hfield)]
    simp only [values, hvalue]
    rfl

end Collected

end Collected

/-! ## What is loaded -/

section Load
variable {nums : Python.Json.Numbers} {paths : GuiPaths} {entries : List (String × Value)}

theorem return_not_mem_settingsText (nums : Python.Json.Numbers)
    (entries : List (String × Value)) : '\r' ∉ settingsText nums entries := by
  rw [settingsText, List.mem_append, not_or]
  exact ⟨Python.Json.return_not_mem_write nums _ 0, by decide⟩

theorem Collected.parse_settingsText (h : Collected paths entries) :
    Python.Json.parse nums.toNumerals (settingsText nums entries) = some (.dict entries) := by
  have hblank : ∀ c ∈ ['\n'], Python.Json.isBlank c = true := List.all_eq_true.mp (by decide)
  exact Python.Json.parse_write nums .indented h.dumpable hblank

/-- A beginning of the text that is read as JSON at all. -/
theorem Collected.parse_cut (h : Collected paths entries) {text more : List Char} {v : Value}
    (htext : text ++ more = settingsText nums entries)
    (hparse : Python.Json.parse nums.toNumerals text = some v) : v = .dict entries := by
  rcases List.eq_nil_or_concat more with rfl | ⟨more, c, rfl⟩
  · rw [List.append_nil] at htext
    rw [htext, h.parse_settingsText] at hparse
    exact (Option.some.inj hparse).symm
  · rw [settingsText, List.concat_eq_append, ← List.append_assoc] at htext
    obtain ⟨hcut, -⟩ := List.append_inj' htext rfl
    exact (Python.Json.parse_cut nums .indented h.dumpable hcut hparse).2

theorem Collected.update_default (h : Collected paths entries) :
    entries.foldl setKey (defaultEntries paths) = entries := by
  have hupdate : entries.foldl setKey ([] ++ defaultEntries paths) = [] ++ entries :=
    Python.Json.foldl_setKey_of_keys h.keys.symm h.nodup
  exact hupdate

/-- **A saved file is loaded as it was saved.** -/
theorem Collected.load_saved (h : Collected paths entries) (linesep : Linesep) :
    loadFile nums.toNumerals paths (some (saveSettings nums linesep entries)) = entries := by
  have hread : Python.readText (saveSettings nums linesep entries) = settingsText nums entries :=
    Python.readText_writeText linesep (return_not_mem_settingsText nums entries)
  rw [loadFile, Option.bind_some, hread, h.parse_settingsText]
  exact h.update_default

/-- **A file that is cut off** is loaded as it was saved, or not at all. -/
theorem Collected.load_cut (h : Collected paths entries) {linesep : Linesep}
    {content more : List Char} (hcontent : content ++ more = saveSettings nums linesep entries) :
    loadFile nums.toNumerals paths (some content) = entries ∨
      loadFile nums.toNumerals paths (some content) = defaultEntries paths := by
  obtain ⟨after, hafter⟩ := Python.readText_cut linesep (return_not_mem_settingsText nums entries)
    hcontent
  rw [loadFile, Option.bind_some]
  cases hparse : Python.Json.parse nums.toNumerals (Python.readText content) with
  | none => exact .inr rfl
  | some v =>
    obtain rfl := h.parse_cut hafter hparse
    exact .inl h.update_default

end Load

/-! ## Runs of the window -/

namespace SettingsWindow
variable {nums : Python.Json.Numbers} {paths : GuiPaths} {linesep : Linesep}

/-- The file as it was before, or the file of the last save: all of it, or a beginning if the
process ended. -/
inductive FileOf (nums : Python.Json.Numbers) (paths : GuiPaths) (linesep : Linesep)
    (before : Option (List Char)) :
    Option (List Char) → List (List (String × Value) × Bool) → Prop
  | untouched : FileOf nums paths linesep before before []
  | saved (shown : List (List (String × Value) × Bool)) {entries : List (String × Value)}
      {completed : Bool} {content more : List Char} (hcollected : Collected paths entries)
      (hcontent : content ++ more = saveSettings nums linesep entries)
      (hcompleted : completed = true → more = []) :
      FileOf nums paths linesep before (some content) (shown ++ [(entries, completed)])

theorem fileOf_next {before : Option (List Char)} (s : SettingsWindow)
    (shown : List (List (String × Value) × Bool)) (e : SettingsEvent)
    (h : FileOf nums paths linesep before s.file shown) :
    FileOf nums paths linesep before (next nums paths linesep s e).file
      (shown ++ saves nums paths s e) := by
  cases e with
  | edit vars | reload | restart =>
    rw [saves, List.append_nil]
    exact h
  | save =>
    cases hcollect : collectEntries nums.toNumerals paths s.vars with
    | none =>
      simp only [next, saves, saveFile, hcollect]
      simpa using h
    | some entries =>
      simp only [next, saves, saveFile, hcollect]
      exact .saved shown (collected_of_collect hcollect) (List.append_nil _) fun _ => rfl
  | crash written =>
    cases hcollect : collectEntries nums.toNumerals paths s.vars with
    | none =>
      simp only [next, started, saves, saveFile, hcollect]
      simpa using h
    | some entries =>
      simp only [next, started, saves, saveFile, hcollect]
      exact .saved shown (collected_of_collect hcollect) (List.take_append_drop written _) nofun

theorem run_fileOf (s : SettingsWindow) (es : List SettingsEvent) :
    FileOf nums paths linesep s.file (Trace.run (next nums paths linesep) s es).file
      (Trace.observe (next nums paths linesep) (saves nums paths) s es) :=
  Trace.run_observe_invariant (fun s' shown e h => fileOf_next s' shown e h) .untouched es

theorem file_reload_save (s : SettingsWindow) :
    (Trace.run (next nums paths linesep) s [.reload, .save]).file =
      (saveFile nums paths linesep (reloadFile nums.toNumerals paths s.vars s.file)).or
        s.file := by
  simp only [Trace.run_cons, Trace.run_nil, next]

/-- What is loaded was collected once, or is the defaults. -/
theorem FileOf.collected {before file : Option (List Char)}
    {shown : List (List (String × Value) × Bool)}
    (h : FileOf nums paths linesep before file shown) (hknown : shown ≠ [] ∨ before = none) :
    Collected paths (loadFile nums.toNumerals paths file) := by
  cases h with
  | untouched =>
    obtain rfl := hknown.resolve_left fun hne => hne rfl
    exact collected_default paths
  | saved shown hcollected hcontent _ =>
    rcases hcollected.load_cut hcontent with hload | hload
    · rwa [hload]
    · rw [hload]
      exact collected_default paths

theorem FileOf.eq_before {before file : Option (List Char)}
    {shown : List (List (String × Value) × Bool)}
    (h : FileOf nums paths linesep before file shown) (hnone : shown.getLast? = none) :
    file = before := by
  cases h with
  | untouched => rfl
  | saved shown _ _ _ =>
    rw [List.getLast?_concat] at hnone
    cases hnone

/-- What the last save says about the file. -/
theorem FileOf.last {before file : Option (List Char)}
    {shown : List (List (String × Value) × Bool)}
    (h : FileOf nums paths linesep before file shown) {settings : List (String × Value)}
    {completed : Bool} (hlast : shown.getLast? = some (settings, completed)) :
    Collected paths settings ∧ ∃ content more, file = some content ∧
      content ++ more = saveSettings nums linesep settings ∧ (completed = true → more = []) := by
  cases h with
  | untouched => cases hlast
  | saved shown hcollected hcontent hcompleted =>
    rw [List.getLast?_concat] at hlast
    obtain ⟨rfl, rfl⟩ := Prod.mk.inj (Option.some.inj hlast)
    exact ⟨hcollected, _, _, rfl, hcontent, hcompleted⟩

theorem FileOf.last_completed {before file : Option (List Char)}
    {shown : List (List (String × Value) × Bool)}
    (h : FileOf nums paths linesep before file shown) {settings : List (String × Value)}
    (hlast : shown.getLast? = some (settings, true)) :
    file = some (saveSettings nums linesep settings) ∧
      loadFile nums.toNumerals paths file = settings := by
  obtain ⟨hcollected, content, more, rfl, hcontent, hcompleted⟩ := h.last hlast
  obtain rfl := hcompleted rfl
  rw [List.append_nil] at hcontent
  rw [hcontent]
  exact ⟨rfl, hcollected.load_saved linesep⟩

end SettingsWindow

/-- **The last save, or the defaults.**  Whatever the user does, and wherever the process ends:
the file is untouched until the first save; after that, what is loaded are the settings of the
last save, entry by entry and in their order, unless the process ended in the middle of that save;
then they may be the defaults, and nothing else. -/
theorem settings_last_save (nums : Python.Json.Numbers) (paths : GuiPaths) (linesep : Linesep)
    (s : SettingsWindow) (es : List SettingsEvent) :
    let s' := Trace.run (SettingsWindow.next nums paths linesep) s es
    let saves := Trace.observe (SettingsWindow.next nums paths linesep)
      (SettingsWindow.saves nums paths) s es
    let loaded := loadFile nums.toNumerals paths s'.file
    match saves.getLast? with
    | none => s'.file = s.file
    | some (settings, true) => loaded = settings
    | some (settings, false) => loaded = settings ∨ loaded = defaultEntries paths := by
  intro s' saves loaded
  have hfile : SettingsWindow.FileOf nums paths linesep s.file s'.file saves :=
    SettingsWindow.run_fileOf s es
  cases hlast : saves.getLast? with
  | none => exact hfile.eq_before hlast
  | some last =>
    match last, hlast with
    | (settings, true), hlast => exact (hfile.last_completed hlast).2
    | (settings, false), hlast =>
      obtain ⟨hcollected, content, more, hcontent, hcut, -⟩ := hfile.last hlast
      simp only [loaded, hcontent]
      exact hcollected.load_cut hcut

/-- **What is shown is saved again.**  Once the window has saved anything, or if there was no file
before it: whatever happened, a reload shows settings that can be saved, saving them keeps what is
loaded, and if the last save was completed it writes the same file, character by character. -/
theorem settings_reload_save (nums : Python.Json.Numbers) (paths : GuiPaths) (linesep : Linesep)
    (s : SettingsWindow) (es : List SettingsEvent)
    (hknown : Trace.observe (SettingsWindow.next nums paths linesep)
      (SettingsWindow.saves nums paths) s es ≠ [] ∨ s.file = none) :
    let s' := Trace.run (SettingsWindow.next nums paths linesep) s es
    let saves := Trace.observe (SettingsWindow.next nums paths linesep)
      (SettingsWindow.saves nums paths) s es
    let loaded := loadFile nums.toNumerals paths s'.file
    let again := Trace.run (SettingsWindow.next nums paths linesep) s' [.reload, .save]
    again.file = some (saveSettings nums linesep loaded) ∧
      loadFile nums.toNumerals paths again.file = loaded ∧
      (saves.getLast?.map Prod.snd = some true → again.file = s'.file) := by
  intro s' saves loaded again
  have hfile : SettingsWindow.FileOf nums paths linesep s.file s'.file saves :=
    SettingsWindow.run_fileOf s es
  have hcollected : Collected paths loaded := hfile.collected hknown
  have hagain : again.file = some (saveSettings nums linesep loaded) := by
    have hcollect := hcollected.collect_setAll nums.toNumerals s'.vars
    rw [SettingsWindow.file_reload_save, reloadFile, saveFile, hcollect]
    rfl
  refine ⟨hagain, ?_, fun hcompleted => ?_⟩
  · rw [hagain]
    exact hcollected.load_saved linesep
  · obtain ⟨⟨settings, completed⟩, hlast, rfl⟩ := Option.map_eq_some_iff.mp hcompleted
    obtain ⟨hsaved, hloaded⟩ := hfile.last_completed hlast
    rw [hagain, hsaved]
    exact congrArg (fun entries => some (saveSettings nums linesep entries)) hloaded

/-- A save that was cut off after a hundred characters: a reload and a save write the defaults. -/
theorem settings_reload_save_cut :
    let nums := Python.Json.Numbers.pointed
    let next := SettingsWindow.next nums .installed .crlf
    let s' := Trace.run next (.started nums.toNumerals .installed none) [.crash 100]
    s'.file.map List.length = some 100 ∧
      (Trace.run next s' [.reload, .save]).file =
        some (saveSettings nums .crlf (defaultEntries .installed)) := by
  intro nums next s'
  have hlength : s'.file.map List.length = some 100 := by decide +kernel
  have hnone : (s'.file.bind fun content =>
      Python.Json.parse nums.toNumerals (Python.readText content)).isNone = true := by
    decide +kernel
  have hload : loadFile nums.toNumerals .installed s'.file = defaultEntries .installed := by
    rw [loadFile, Option.isNone_iff_eq_none.mp hnone]
  have hagain := (settings_reload_save nums .installed .crlf
    (.started nums.toNumerals .installed none) [.crash 100] (.inr rfl)).1
  exact ⟨hlength, hagain.trans (congrArg (fun entries => some (saveSettings nums .crlf entries))
    hload)⟩

end XInputSwitch
