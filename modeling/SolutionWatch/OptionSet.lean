/-!
# Option sets

Parse, compilation and analyzer options are sets of key and value texts. A set is stored in
ascending key order, so two sets with the same entries are equal whatever the order in which
their entries were given.
-/

namespace SolutionWatch

/-- A finite map from option names to option values. -/
structure OptionSet where
  /-- The entries, in ascending key order. -/
  entries : List (String × String) := []
  deriving DecidableEq, Repr, Inhabited

namespace OptionSet

/-- Puts an entry at its place in ascending key order, dropping an older value of its key. -/
def place (key value : String) : List (String × String) → List (String × String)
  | [] => [(key, value)]
  | e :: rest =>
    if key < e.1 then (key, value) :: e :: rest
    else if key = e.1 then (key, value) :: rest
    else e :: place key value rest

/-- Sets an option, replacing its older value. -/
def set (options : OptionSet) (key value : String) : OptionSet :=
  ⟨place key value options.entries⟩

/-- The set with the given entries; of two entries for one key the later holds. -/
def ofList (entries : List (String × String)) : OptionSet :=
  entries.foldl (fun options e => options.set e.1 e.2) {}

/-- The value of an option, if it is set. -/
def get? (options : OptionSet) (key : String) : Option String :=
  (options.entries.find? fun e => e.1 = key).map Prod.snd

/-- Whether no option is set. -/
def isEmpty (options : OptionSet) : Bool := options.entries.isEmpty

end OptionSet

end SolutionWatch
