import AttentiveReasoner.Language.Copula

/-!
Contract: the symbols of the notation and the canonical names they spell.

Owns:
- a table with one symbol for every copula, the connector of conjunctions, the
  brackets and the separator;
- the canonical name of a statement and of a conjunction;
- tables that differ from the usual one in some symbols.

Does not own: which components a term has, or that different terms get different
names. Under a table with clashing symbols they need not.
-/

namespace AttentiveReasoner.Language

/-- The symbols of the notation. -/
structure Symbols where
  inheritance : String := "-->"
  similarity : String := "<->"
  implication : String := "==>"
  implicationAfter : String := "=/>"
  implicationWhen : String := "=|>"
  implicationBefore : String := "=\\>"
  equivalence : String := "<=>"
  conjunction : String := "&&"
  statementOpener : String := "<"
  statementCloser : String := ">"
  compoundOpener : String := "("
  compoundCloser : String := ")"
  separator : String := ","
deriving DecidableEq, Repr

namespace Symbols

/-- The table in which some symbols are given, by the names they have in files;
the others are the usual ones. -/
def ofNames (given : String → Option String) : Symbols :=
  let usual : Symbols := {}
  let symbol (name default : String) : String := (given name).getD default
  { inheritance := symbol "inheritance" usual.inheritance
    similarity := symbol "similarity" usual.similarity
    implication := symbol "implication" usual.implication
    implicationAfter := symbol "implication_after" usual.implicationAfter
    implicationWhen := symbol "implication_when" usual.implicationWhen
    implicationBefore := symbol "implication_before" usual.implicationBefore
    equivalence := symbol "equivalence" usual.equivalence
    conjunction := symbol "conjunction" usual.conjunction
    statementOpener := symbol "statement_opener" usual.statementOpener
    statementCloser := symbol "statement_closer" usual.statementCloser
    compoundOpener := symbol "compound_opener" usual.compoundOpener
    compoundCloser := symbol "compound_closer" usual.compoundCloser
    separator := symbol "separator" usual.separator }

/-- The symbol of a copula; the temporal order selects that of an implication. -/
def copula (symbols : Symbols) : Copula → String
  | .inheritance => symbols.inheritance
  | .similarity => symbols.similarity
  | .implication .eternal => symbols.implication
  | .implication .forward => symbols.implicationAfter
  | .implication .concurrent => symbols.implicationWhen
  | .implication .backward => symbols.implicationBefore
  | .equivalence => symbols.equivalence

/-- The canonical name of a statement: both sides around the copula, spaced, in
brackets. -/
def statementName
    (symbols : Symbols)
    (copula : Copula)
    (subject predicate : String) :
    String :=
  symbols.statementOpener ++ subject ++ " " ++ symbols.copula copula ++ " " ++
    predicate ++ symbols.statementCloser

/-- The canonical name of a conjunction: the connector and every component, each
component behind a separator, in brackets. -/
def conjunctionName
    (symbols : Symbols)
    (components : List String) :
    String :=
  symbols.compoundOpener ++ symbols.conjunction ++
    String.join (components.map (symbols.separator ++ ·)) ++
    symbols.compoundCloser

end Symbols

end AttentiveReasoner.Language
