import XInputSwitch.DiscordBot
import XInputSwitch.LowerCase

/-! # The command prefix

`parse_command` compares the prefix, as it was configured, with a message in lower case.
Whether a prefix does its work is therefore a question of its own letters only
(`prefix_transparent`): one with a capital letter is not found where it stands.
-/
namespace XInputSwitch

open Python (Runtime)

/-- What `load_config` makes of `DISCORD_COMMAND_PREFIX`. -/
def commandPrefixOf (setting : String) : String := Python.strip setting

/-- The end of `parse_command`. -/
def commandOf (text : String) : Option BotCommand :=
  if text = "" then none
  else
    (commandAliases.lookup (Python.firstWord text)).map fun command =>
      ⟨command, Python.firstWord text⟩

theorem parseCommand_eq (py : Runtime) (content commandPrefix : String) :
    parseCommand py content commandPrefix =
      (afterPrefix commandPrefix (py.lower (Python.strip content))).bind commandOf := by
  unfold parseCommand
  cases afterPrefix commandPrefix (py.lower (Python.strip content)) <;> rfl

/-! ## Words -/

theorem firstWord_foldSigma {text text' : String}
    (h : text.toList.map Python.foldSigma = text'.toList.map Python.foldSigma) :
    (Python.firstWord text).toList.map Python.foldSigma =
      (Python.firstWord text').toList.map Python.foldSigma := by
  rw [← Python.firstWord_map Python.isSpace_foldSigma, h,
    Python.firstWord_map Python.isSpace_foldSigma]

/-- No listed word has a sigma. -/
theorem eq_of_lookup_foldSigma {token token' command : String}
    (h : token.toList.map Python.foldSigma = token'.toList.map Python.foldSigma)
    (hlookup : commandAliases.lookup token = some command) : token' = token := by
  have hletters : (commandAliases.all fun entry =>
      entry.1.toList.all fun c => c ≠ 'ς' ∧ c ≠ 'σ') = true := by
    decide +kernel
  have htoken := List.all_eq_true.mp hletters _ (Python.mem_of_lookup hlookup)
  exact String.toList_inj.mp (Python.eq_of_foldSigma_eq h fun c hc =>
    of_decide_eq_true (List.all_eq_true.mp htoken c hc))

/-- A final sigma makes no difference. -/
theorem commandOf_foldSigma {text text' : String}
    (h : text.toList.map Python.foldSigma = text'.toList.map Python.foldSigma) :
    commandOf text = commandOf text' := by
  have hempty : text = "" ↔ text' = "" := by
    have hnil (s : String) : s = "" ↔ s.toList.map Python.foldSigma = [] := by simp
    rw [hnil text, hnil text', h]
  have hword := firstWord_foldSigma h
  unfold commandOf
  simp only [hempty]
  split
  · rfl
  · cases hlookup : commandAliases.lookup (Python.firstWord text) with
    | some command => rw [eq_of_lookup_foldSigma hword hlookup, hlookup]
    | none =>
      cases hlookup' : commandAliases.lookup (Python.firstWord text') with
      | none => rfl
      | some command =>
        rw [← eq_of_lookup_foldSigma hword.symm hlookup', hlookup] at hlookup'
        cases hlookup'

/-! ## Prefixes -/

theorem afterPrefix_append {commandPrefix : String} (hne : commandPrefix ≠ "") {text : String}
    {rest : List Char} (htext : text.toList = commandPrefix.toList ++ rest) :
    afterPrefix commandPrefix text = some (String.ofList (Python.stripList rest)) := by
  simp [afterPrefix, hne, htext, Python.strip]

theorem isPrefix_of_parseCommand {py : Runtime} {content commandPrefix : String} {c : BotCommand}
    (h : parseCommand py content commandPrefix = some c) :
    commandPrefix.toList <+: (py.lower (Python.strip content)).toList := by
  rw [parseCommand_eq] at h
  unfold afterPrefix at h
  split at h
  · rename_i hempty
    rw [hempty]
    exact List.nil_prefix
  · split at h
    · rename_i hpre
      exact List.isPrefixOf_iff_prefix.mp hpre
    · cases h

/-- The word `a`, whatever the library. -/
theorem parseCommand_a (py : Runtime) : parseCommand py "a" "" = some ⟨"a", "a"⟩ := by
  have hlower : py.lower (Python.strip "a") = "a" :=
    (py.lower_of_all (by decide)).trans (by decide)
  rw [parseCommand_eq, hlower]
  decide

section Lower
variable {setting : String} (hne : commandPrefixOf setting ≠ "")
include hne

/-- The prefix keeps its place when a text is stripped. -/
theorem strip_prefix_append (c : List Char) :
    Python.stripList ((commandPrefixOf setting).toList ++ c) =
      (commandPrefixOf setting).toList ++ c.rdropWhile Python.isSpace := by
  have hnil : (commandPrefixOf setting).toList ≠ [] := by simpa using hne
  have hstrip : Python.stripList (commandPrefixOf setting).toList =
      (commandPrefixOf setting).toList := by
    simp only [commandPrefixOf, Python.strip, String.toList_ofList, Python.stripList_stripList]
  exact Python.stripList_append hnil hstrip c

variable {py : Runtime} {table : Char → List Char} (hpy : py.LowersBy table)
include hpy

/-- A prefix in lower case is found in front of every text, and what is left is the text,
up to final sigmas. -/
theorem parseCommand_lower_prefix
    (hlower : py.lower (commandPrefixOf setting) = commandPrefixOf setting) {c m : String}
    (hm : py.lower m = py.lower (commandPrefixOf setting ++ c)) :
    parseCommand py m (commandPrefixOf setting) = parseCommand py c "" := by
  have hform : Python.LowerForm table ((commandPrefixOf setting).toList ++ c.toList)
      (py.lower m).toList := by
    rw [hm, ← String.toList_append]
    exact hpy.form _
  obtain ⟨x, y, hxy, hx, hy⟩ := hform.append_inv
  -- the prefix is in lower case, so it stands in front of the message as it is
  have hprefix : x = (commandPrefixOf setting).toList := by
    have hself : Python.LowerForm table (commandPrefixOf setting).toList
        (commandPrefixOf setting).toList := by
      have hform := hpy.form (commandPrefixOf setting)
      rwa [hlower] at hform
    exact Python.LowerForm.eq_of_prefix hpy hself List.prefix_rfl hx
  have htext : (py.lower (Python.strip m)).toList =
      (commandPrefixOf setting).toList ++ y.rdropWhile Python.isSpace := by
    rw [hpy.lower_strip, Python.strip, String.toList_ofList, hxy, hprefix,
      strip_prefix_append hne]
  rw [parseCommand_eq, parseCommand_eq, afterPrefix_append hne htext,
    Python.stripList_rdropWhile]
  refine commandOf_foldSigma ?_
  have hfold := Python.stripList_map Python.isSpace_foldSigma
  rw [hpy.lower_strip, Python.strip, String.toList_ofList, String.toList_ofList, ← hfold, ← hfold,
    Python.LowerForm.foldSigma_eq hpy.table_sigma hy (hpy.form c)]

/-- A prefix that is found in front of the word `a` is in lower case. -/
theorem lower_of_parseCommand_prefix {c : BotCommand}
    (h : parseCommand py (commandPrefixOf setting ++ "a") (commandPrefixOf setting) = some c) :
    py.lower (commandPrefixOf setting) = commandPrefixOf setting := by
  have hstrip : Python.strip (commandPrefixOf setting ++ "a") = commandPrefixOf setting ++ "a" := by
    rw [← String.toList_inj, Python.strip, String.toList_ofList, String.toList_append,
      strip_prefix_append hne]
    rfl
  have hpre := isPrefix_of_parseCommand h
  have hform := hpy.form (commandPrefixOf setting ++ "a")
  rw [hstrip] at hpre
  rw [String.toList_append] at hform
  obtain ⟨x, y, hxy, hx, -⟩ := hform.append_inv
  rw [hxy] at hpre
  have hpre : (commandPrefixOf setting).toList <+: x :=
    List.prefix_of_prefix_length_le hpre (List.prefix_append x y)
      (Python.LowerForm.length_le hpy hx)
  exact String.toList_inj.mp (Python.LowerForm.eq_of_prefix hpy hx hpre (hpy.form _))

end Lower

/-- **Prefixes.**  Each prefix is transparent, in any letter case of the message, and
required, if and only if it is in lower case itself. -/
theorem prefix_transparent (py : Runtime) (table : Char → List Char) (hpy : py.LowersBy table)
    (setting : String) (hne : commandPrefixOf setting ≠ "") :
    ((∀ c m, py.lower m = py.lower (commandPrefixOf setting ++ c) →
        parseCommand py m (commandPrefixOf setting) = parseCommand py c "") ∧
      ∀ m, ¬ (py.lower (commandPrefixOf setting)).toList <+: (py.lower (Python.strip m)).toList →
        parseCommand py m (commandPrefixOf setting) = none) ↔
    py.lower (commandPrefixOf setting) = commandPrefixOf setting := by
  constructor
  · rintro ⟨htransparent, -⟩
    exact lower_of_parseCommand_prefix hne hpy
      ((htransparent "a" _ rfl).trans (parseCommand_a py))
  · intro hlower
    refine ⟨fun c m hm => parseCommand_lower_prefix hne hpy hlower hm, fun m hm => ?_⟩
    by_contra hparse
    obtain ⟨c, hparse⟩ := Option.ne_none_iff_exists'.mp hparse
    rw [hlower] at hm
    exact hm (isPrefix_of_parseCommand hparse)

/-- The prefix `go`. -/
theorem prefix_transparent_go :
    parseCommand .sigma "GO Left" (commandPrefixOf "go ") = parseCommand .sigma " left" "" ∧
      parseCommand .sigma "GO Left" (commandPrefixOf "go ") = some ⟨"left", "left"⟩ := by
  obtain ⟨htransparent, -⟩ := (prefix_transparent .sigma _ Runtime.sigma_lowersBy "go "
    (by decide)).mpr (by decide)
  exact ⟨htransparent " left" "GO Left" (by decide), by decide +kernel⟩

/-- The prefix `Go` is not found in front of ` a`. -/
theorem prefix_capital :
    commandPrefixOf "Go" = "Go" ∧ parseCommand .sigma ("Go" ++ " a") "Go" = none ∧
      parseCommand .sigma " a" "" = some ⟨"a", "a"⟩ := by
  decide +kernel

end XInputSwitch
