import Descent.KindSet

/-!
# Languages

A language tells a parse what it cannot know by itself: how kinds are called, which tokens lie
between the significant ones, which node may stand in for which, and what delimits what.
A `LanguageTable` describes a language by data.
-/

namespace Descent

/-- A pair of kinds that open and close a region. -/
structure Delimiters where
  opening : Kind
  closing : Kind
  deriving DecidableEq, Repr, Inhabited

/-- What a parse asks about the language of its source. -/
structure Language where
  /-- How a kind is called in messages; a literal token is called by its text. -/
  nameOf : Kind → String
  /-- Whether tokens of the kind are blanks or comments. -/
  isTrivia : Kind → Bool
  /-- Whether a node of the first kind may stand in for one of the second. -/
  standsFor : Kind → Kind → Bool := fun child parent => child == parent
  /-- The pairs of delimiters. The first one is minded when tokens are skipped. -/
  delimiters : List Delimiters := []
  /-- Whether literal texts match only in the case they are written in. -/
  caseSensitive : Bool := true

/-- Whether a token of this kind is trivia. The end of the source is not. -/
def Language.isTrivia? (l : Language) : Option Kind → Bool
  | some k => l.isTrivia k
  | none => false

/-- A language as data. -/
structure LanguageTable where
  /-- The names of kinds, the latest first. -/
  names : List (Kind × String) := []
  trivia : KindSet := ∅
  /-- Groups of kinds that may stand in for one another. -/
  groups : List KindSet := []
  delimiters : List Delimiters := []
  caseSensitive : Bool := true
  deriving DecidableEq

namespace LanguageTable

/-- Names a kind; a later name replaces an earlier one. -/
def addName (t : LanguageTable) (k : Kind) (text : String) : LanguageTable :=
  { t with names := (k, text) :: t.names }

def addTrivia (t : LanguageTable) (k : Kind) : LanguageTable :=
  { t with trivia := t.trivia.insert k }

def addGroup (t : LanguageTable) (ks : List Kind) : LanguageTable :=
  { t with groups := t.groups ++ [KindSet.ofList ks] }

def addDelimiters (t : LanguageTable) (opening closing : Kind) : LanguageTable :=
  { t with delimiters := t.delimiters ++ [⟨opening, closing⟩] }

def ignoreCase (t : LanguageTable) : LanguageTable := { t with caseSensitive := false }

/-- The given name, else a name made from the kind itself. -/
def nameOf (t : LanguageTable) (k : Kind) : String :=
  match t.names.lookup k with
  | some text => text
  | none => if k = .error then "<error>" else k.debugName

/-- A kind stands in for itself and for the others of its groups. -/
def standsFor (t : LanguageTable) (child parent : Kind) : Bool :=
  child == parent || t.groups.any fun group => group.contains child && group.contains parent

/-- The language a table describes. -/
def toLanguage (t : LanguageTable) : Language where
  nameOf := t.nameOf
  isTrivia := t.trivia.contains
  standsFor := t.standsFor
  delimiters := t.delimiters
  caseSensitive := t.caseSensitive

/-- The language with the names and the trivia of a table and nothing else. -/
def toBareLanguage (t : LanguageTable) : Language where
  nameOf := t.nameOf
  isTrivia := t.trivia.contains

end LanguageTable

end Descent
