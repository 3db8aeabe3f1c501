import Mathlib.Data.List.Basic

/-! # Options on a command line

`parse_args` of Python's `argparse`, for a parser with long options only: flags, options that
take one value, and the help option every parser has.  Options may be abbreviated, and a
value may be given after an equals sign.

A word is an argument or an option by its looks alone (`classify`), before any option
is acted upon: so a text that looks like an option is never taken as the value of one.  All
ways of not accepting a command line, the help option among them, end the program, and are not
told apart here.

`parse_words`: written out as words, a list of settings is accepted exactly if every value
looks like an argument, and is then carried out in order.
-/
namespace ArgParse

variable {ν : Type*}

/-- What an option does to the values collected so far. -/
inductive Action (ν : Type*) where
  /-- `store_true` -/
  | flag (set : ν → ν)
  /-- `store`: the value is converted and checked -/
  | store (set : String → ν → Option ν)
  | help

/-- The option strings, with what they do. -/
abbrev Parser (ν : Type*) := List (String × Action ν)

/-- What a word looks like. -/
inductive Word (ν : Type*) where
  | argument
  /-- an option, with what comes after its equals sign -/
  | option (action : Action ν) (value : Option String)
  | ambiguous
  | unknown

/-- A text up to its first equals sign, and what comes after it, if there is one. -/
def cutEquals (text : List Char) : List Char × Option String :=
  (text.takeWhile (· ≠ '='),
    if '=' ∈ text then some (String.ofList ((text.dropWhile (· ≠ '=')).drop 1)) else none)

/-- The pattern `^-\d+$|^-\d*\.\d+$`; `$` allows for a line break at the end. -/
def negativeNumber (decimal : Char → Bool) (text : List Char) : Bool :=
  let text := if text.getLast? = some '\n' then text.dropLast else text
  match text with
  | '-' :: digits =>
    (!digits.isEmpty && digits.all decimal) ||
      match digits.dropWhile decimal with
      | '.' :: fraction => !fraction.isEmpty && fraction.all decimal
      | _ => false
  | _ => false

/-- `_get_option_tuples`: the options that a text of two characters or more abbreviates. -/
def optionTuples (parser : Parser ν) (text : List Char) : List (Action ν × Option String) :=
  match text with
  | '-' :: '-' :: _ =>
    let (front, value) := cutEquals text
    (parser.filter fun option => front.isPrefixOf option.1.toList).map fun option =>
      (option.2, value)
  | _ =>
    parser.filterMap fun option =>
      if option.1.toList = text.take 2 then some (option.2, some (String.ofList (text.drop 2)))
      else if text.isPrefixOf option.1.toList then some (option.2, none)
      else none

/-- `_parse_optional`, of a word other than `--`. -/
def classify (decimal : Char → Bool) (parser : Parser ν) (word : String) : Word ν :=
  if word.toList.head? ≠ some '-' then .argument
  else
    match parser.lookup word with
    | some action => .option action none
    | none =>
      if word.toList.length = 1 then .argument
      else
        let (front, value) := cutEquals word.toList
        match value, parser.lookup (String.ofList front) with
        | some value, some action => .option action (some value)
        | _, _ =>
          match optionTuples parser word.toList with
          | [(action, value)] => .option action value
          | _ :: _ :: _ => .ambiguous
          | [] =>
            if negativeNumber decimal word.toList || word.toList.contains ' ' then .argument
            else .unknown

/-- A word that can be the value of an option. -/
def isArgument (decimal : Char → Bool) (parser : Parser ν) (word : String) : Bool :=
  word ≠ "--" &&
    match classify decimal parser word with
    | .argument => true
    | _ => false

/-- `parse_args`, if it returns.  No positional arguments are expected, so a word that is
not an option, or the value of one, is an error. -/
def parse (decimal : Char → Bool) (parser : Parser ν) : ν → List String → Option ν
  | values, [] => some values
  | values, word :: words =>
    if word = "--" then none
    else
      match classify decimal parser word with
      | .option (.flag set) none => parse decimal parser (set values) words
      | .option (.store set) (some value) =>
        (set value values).bind fun values => parse decimal parser values words
      | .option (.store set) none =>
        match words with
        | [] => none
        | value :: words =>
          if isArgument decimal parser value then
            (set value values).bind fun values => parse decimal parser values words
          else none
      | _ => none

/-! ## Settings as words -/

/-- An option as a program writes it that starts another. -/
inductive Setting where
  | flag (name : String)
  | store (name value : String)

namespace Setting

def words : Setting → List String
  | .flag name => [name]
  | .store name value => [name, value]

/-- The values among the words. -/
def values : Setting → List String
  | .flag _ => []
  | .store _ value => [value]

/-- Carry out a setting. -/
def apply (parser : Parser ν) (values : ν) : Setting → Option ν
  | .flag name =>
    match parser.lookup name with
    | some (.flag set) => some (set values)
    | _ => none
  | .store name value =>
    match parser.lookup name with
    | some (.store set) => set value values
    | _ => none

/-- The option exists, and takes a value or not as it is written. -/
def Known (parser : Parser ν) : Setting → Prop
  | .flag name => name.toList.head? = some '-' ∧ name ≠ "--" ∧
    ∃ set, parser.lookup name = some (.flag set)
  | .store name _ => name.toList.head? = some '-' ∧ name ≠ "--" ∧
    ∃ set, parser.lookup name = some (.store set)

end Setting

section Parse
variable {decimal : Char → Bool} {parser : Parser ν}

/-- An option written in full is one. -/
theorem classify_of_lookup {name : String} {action : Action ν}
    (hdash : name.toList.head? = some '-') (h : parser.lookup name = some action) :
    classify decimal parser name = .option action none := by
  rw [classify, if_neg (not_not_intro hdash), h]

theorem parse_flag {name : String} {set : ν → ν} (hdash : name.toList.head? = some '-')
    (hname : name ≠ "--") (h : parser.lookup name = some (.flag set)) (values : ν)
    (words : List String) :
    parse decimal parser values (name :: words) = parse decimal parser (set values) words := by
  rw [parse, if_neg hname, classify_of_lookup hdash h]

theorem parse_store {name : String} {set : String → ν → Option ν}
    (hdash : name.toList.head? = some '-') (hname : name ≠ "--")
    (h : parser.lookup name = some (.store set)) (values : ν) (value : String)
    (words : List String) :
    parse decimal parser values (name :: value :: words) =
      if isArgument decimal parser value then
        (set value values).bind fun values => parse decimal parser values words
      else none := by
  rw [parse, if_neg hname, classify_of_lookup hdash h]

/-- **Settings written out as words.** -/
theorem parse_words {settings : List Setting} (hknown : ∀ s ∈ settings, s.Known parser)
    (values : ν) :
    parse decimal parser values (settings.flatMap Setting.words) =
      if (settings.flatMap Setting.values).all (isArgument decimal parser) then
        settings.foldlM (Setting.apply parser) values
      else none := by
  induction settings generalizing values with
  | nil => simp [parse]
  | cons s settings ih =>
    obtain ⟨hs, hrest⟩ := List.forall_mem_cons.mp hknown
    rw [List.foldlM_cons, List.flatMap_cons, List.flatMap_cons]
    cases s with
    | flag name =>
      obtain ⟨hdash, hname, set, hset⟩ := hs
      rw [Setting.words, List.singleton_append, parse_flag hdash hname hset, ih hrest]
      rw [Setting.values, List.nil_append]
      simp only [Setting.apply, hset]
      rfl
    | store name value =>
      obtain ⟨hdash, hname, set, hset⟩ := hs
      rw [Setting.words, List.cons_append, List.singleton_append, parse_store hdash hname hset]
      rw [Setting.values, List.singleton_append, List.all_cons]
      simp only [Setting.apply, hset]
      cases isArgument decimal parser value with
      | false => rfl
      | true =>
        rw [if_pos rfl, Bool.true_and]
        cases set value values with
        | none => simp
        | some values' => exact ih hrest values'

end Parse

end ArgParse
