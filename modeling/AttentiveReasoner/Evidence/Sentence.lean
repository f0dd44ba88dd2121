import AttentiveReasoner.Evidence.Stamp
import AttentiveReasoner.Language.Term

/-!
Contract: sentences, terms that are stated, asked or wanted.

Owns: the punctuation of a sentence, its key and its written form.

Does not own: the term, which other sentences may share. The base is no part of
the key, so two inputs of one sentence compete for one place.
-/

namespace AttentiveReasoner.Evidence

open AttentiveReasoner.Language

/-- What a sentence does with its content. -/
inductive Punctuation where
  | judgment
  | question
  | goal
deriving DecidableEq, Repr

/-- The mark at the end of a sentence. -/
def Punctuation.symbol : Punctuation → String
  | .judgment => "."
  | .question => "?"
  | .goal => "!"

/-- A term with a punctuation and a stamp. -/
structure Sentence where
  content : Term
  punctuation : Punctuation
  stamp : Stamp

namespace Sentence

/-- Whether the sentence states its content. -/
def isJudgment (sentence : Sentence) : Bool :=
  sentence.punctuation = .judgment

/-- The name of the content with the mark of the punctuation. -/
def key (sentence : Sentence) : String :=
  sentence.content.name ++ sentence.punctuation.symbol

/-- The written form: the key and the evidential base. -/
def text (sentence : Sentence) : String :=
  sentence.key ++ " " ++ sentence.stamp.baseText

end Sentence

end AttentiveReasoner.Evidence
