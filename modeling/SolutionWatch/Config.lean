import SolutionWatch.Cascade
import SolutionWatch.Json.Value

/-!
# Configuration

The settings of a host have a section for the pipeline. A field of the section counts only if it
has the right type; any other field keeps its default, and so does an unknown name. A host whose
settings lack the section has no configuration at all.
-/

namespace SolutionWatch

/-- How the pipeline is set up. -/
structure Config where
  /-- Whether changes are listened to at all. -/
  enabled : Bool := true
  /-- The length of a window of the event queue, in milliseconds. -/
  debounce : Nat := 500
  /-- The greatest number of events in a batch; zero stands for no limit. -/
  batchLimit : Nat := 0
  /-- Whether a worker is asked before this process does the work. -/
  preferWorker : Bool := true
  /-- The direction of cascading in searches that do not give one. -/
  cascade : CascadeDirection := .bidirectional
  deriving DecidableEq, Repr

namespace Config

/-- The options of searches that do not give any. -/
def searchOptions (config : Config) : SearchOptions := { direction := config.cascade }

/-- The direction of a name. -/
def direction? : String → Option CascadeDirection
  | "unidirectional" => some .unidirectional
  | "bidirectional" => some .bidirectional
  | _ => none

/-- The natural number below `2 ^ 64` in a field. -/
def number? (json : Json) (name : String) : Option Nat :=
  ((json.field? name).bind Json.asNat?).filter fun n => n < UInt64.size

/-- The truth value in a field. -/
def flag? (json : Json) (name : String) : Option Bool := (json.field? name).bind Json.asBool?

/-- The configuration that a section gives. -/
def ofSection (json : Json) : Config where
  enabled := (flag? json "enabled").getD true
  debounce := (number? json "debounceMs").getD 500
  batchLimit := (number? json "maxBatchSize").getD 0
  preferWorker := (flag? json "preferRemote").getD true
  cascade :=
    ((((json.field? "search").bind fun search => search.field? "cascade").bind
      Json.asText?).bind direction?).getD .bidirectional

/-- The configuration in the settings of a host, if they have the section. -/
def ofSettings? (settings : Json) : Option Config := (settings.field? "crawler").map ofSection

end Config

end SolutionWatch
