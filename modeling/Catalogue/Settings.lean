import Catalogue.Field.Conversion

/-!
The settings of a listing, read leniently from named values.
-/

namespace Catalogue

structure Settings where
  /-- The greatest page size, and the size where none is asked for. -/
  maxLimit : Int := 100
  /-- The column that marks deleted rows; no column when absent or empty. -/
  deletedMarker : Option String := some "deleted_on"
  randomSeedLength : Int := 16
  /-- The parameter that carries the free text. -/
  textParam : String := "q"
  /-- Further names of that parameter, tried in order. -/
  textParamAliases : List String := ["r"]
  logQueries : Bool := false
  max_pos : 0 < maxLimit := by decide
  seed_pos : 0 < randomSeedLength := by decide
  deriving DecidableEq

namespace Settings

instance : Inhabited Settings := ⟨{}⟩

abbrev Located := String × SettingProblem

/-- Reads one setting; one that is not given keeps its default. -/
def field {α : Type} (given : Entries) (name : String) (default : α)
    (read : Value → Except (List Located) α) : Except (List Located) α :=
  match given.get? name with
  | none => .ok default
  | some v => read v

def located {α : Type} (name : String) : Except SettingProblem α → Except (List Located) α
  | .ok a => .ok a
  | .error problem => .error [(name, problem)]

abbrev Positive := { n : Int // 0 < n }

def positive (v : Value) : Except SettingProblem Positive := do
  let n ← Conversion.integer v
  if h : 0 < n then .ok ⟨n, h⟩ else .error .notPositive

def optionalText : Value → Except SettingProblem (Option String)
  | .null => .ok none
  | v => (Conversion.text v).map some

def problems {α : Type} : Except (List Located) α → List Located
  | .ok _ => []
  | .error ps => ps

/-- The texts of a list; every problem is reported with its position. -/
def texts (name : String) : (position : Nat) → List Value → Except (List Located) (List String)
  | _, [] => .ok []
  | i, v :: rest =>
    let place := name ++ "." ++ String.ofList (Text.decimal i)
    match located place (Conversion.text v), texts name (i + 1) rest with
    | .ok s, .ok ss => .ok (s :: ss)
    | first, others => .error (problems first ++ problems others)

def textList (name : String) : Value → Except (List Located) (List String)
  | .list items => texts name 0 items
  | _ => .error [(name, .notSequence)]

/-- Reads settings from named values; unknown names say nothing. All problems are reported, in the
order of the settings. -/
def ofEntries (given : Entries) : Outcome Settings :=
  let maxLimit := field given "max_limit" (⟨100, by decide⟩ : Positive) fun v =>
    located "max_limit" (positive v)
  let marker := field given "deleted_marker" (some "deleted_on") fun v =>
    located "deleted_marker" (optionalText v)
  let seedLength := field given "random_seed_length" (⟨16, by decide⟩ : Positive) fun v =>
    located "random_seed_length" (positive v)
  let textParam := field given "text_param" "q" fun v =>
    located "text_param" (Conversion.text v)
  let aliases := field given "text_param_aliases" ["r"] (textList "text_param_aliases")
  let log := field given "log_queries" false fun v =>
    located "log_queries" (Conversion.boolean v)
  match maxLimit, marker, seedLength, textParam, aliases, log with
  | .ok m, .ok marker, .ok s, .ok textParam, .ok aliases, .ok log =>
    .ok { maxLimit := m.val, deletedMarker := marker, randomSeedLength := s.val, textParam,
          textParamAliases := aliases, logQueries := log, max_pos := m.property,
          seed_pos := s.property }
  | maxLimit, marker, seedLength, textParam, aliases, log =>
    .error (.settings (problems maxLimit ++ problems marker ++ problems seedLength ++
      problems textParam ++ problems aliases ++ problems log))

/-- Reads settings from a configuration, whose entry `app` may hold the greatest page size of the
whole application. -/
def ofConfiguration (config : Entries) : Outcome Settings :=
  let rest := config.erase "app"
  let nested? := match config.get? "app" with
    | some (.object app) => Entries.get? app "maxLimitListing"
    | _ => none
  match nested? with
  | some v => ofEntries (if rest.has "max_limit" then rest else rest ++ [(Value.text "max_limit", v)])
  | none => ofEntries rest

end Settings

end Catalogue
