/-!
# Reasons for looking at something again

A `Reasons` value is a set of reasons, kept as the bits of a 32-bit word. Ten reasons have names;
bits without a name are kept, but are not written. The written form lists the names in a fixed
order, and is `Empty` for the empty set only.
-/

namespace SolutionWatch

/-- A set of reasons. -/
structure Reasons where
  /-- The word whose bits are the members of the set. -/
  bits : BitVec 32
  deriving DecidableEq, Repr

namespace Reasons

/-- The set without reasons. -/
def empty : Reasons := ⟨0⟩

instance : Inhabited Reasons := ⟨empty⟩

/-- A document, project or solution is new. -/
def documentAdded : Reasons := ⟨1⟩
/-- A document or project is gone. -/
def documentRemoved : Reasons := ⟨2⟩
/-- A document was opened. -/
def documentOpened : Reasons := ⟨4⟩
/-- A document was closed. -/
def documentClosed : Reasons := ⟨8⟩
/-- The syntax of a document changed. -/
def syntaxChanged : Reasons := ⟨16⟩
/-- The meaning of a document changed. -/
def semanticChanged : Reasons := ⟨32⟩
/-- The parse options of a project changed. -/
def parseOptionsChanged : Reasons := ⟨64⟩
/-- The configuration, the references or the analysis switch of a project changed. -/
def configurationChanged : Reasons := ⟨128⟩
/-- A document of a project that is not a source document changed. -/
def additionalDocumentChanged : Reasons := ⟨256⟩
/-- The whole solution is gone. -/
def solutionRemoved : Reasons := ⟨512⟩

/-- The reasons of either set. -/
def union (a b : Reasons) : Reasons := ⟨a.bits ||| b.bits⟩

/-- The two reasons that an edit of a document gives. -/
def documentChanged : Reasons := union syntaxChanged semanticChanged

/-- Whether every reason of `b` is in `a`. -/
def contains (a b : Reasons) : Bool := a.bits &&& b.bits == b.bits

/-- Whether a set has no reasons. -/
def isEmpty (a : Reasons) : Bool := a.bits == 0

/-- `a` if the condition holds, else nothing. -/
def onlyIf (condition : Bool) (a : Reasons) : Reasons := if condition then a else empty

/-- The reasons that have names, in the order in which they are written. -/
def named : List (Reasons × String) :=
  [(documentAdded, "DocumentAdded"), (documentRemoved, "DocumentRemoved"),
    (documentOpened, "DocumentOpened"), (documentClosed, "DocumentClosed"),
    (syntaxChanged, "SyntaxChanged"), (semanticChanged, "SemanticChanged"),
    (parseOptionsChanged, "ProjectParseOptionChanged"),
    (configurationChanged, "ProjectConfigurationChanged"),
    (additionalDocumentChanged, "AdditionalDocumentChanged"),
    (solutionRemoved, "SolutionRemoved")]

/-- The names of the reasons in a set. -/
def names (a : Reasons) : List String :=
  (named.filter fun entry => a.contains entry.1).map Prod.snd

/-- The written form of a set. -/
def text (a : Reasons) : String := if a.isEmpty then "Empty" else "|".intercalate a.names

end Reasons

end SolutionWatch
