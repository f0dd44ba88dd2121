import AttentiveReasoner.Evidence.Sentence

/-!
Contract: the table of beliefs of a concept.

Owns: the sentences that a concept holds true, the latest first, one under each
key and at most as many as the table has room for.

Does not own: which sentences are entered. A table without room stays empty.
-/

namespace AttentiveReasoner.Knowledge

open AttentiveReasoner.Evidence

/-- A bounded history of sentences, the latest first. -/
structure Beliefs where
  capacity : Nat
  sentences : List Sentence := []

namespace Beliefs

/-- Enter a sentence. It replaces the one of its key, and the oldest one leaves if
there are too many. -/
def add (beliefs : Beliefs) (sentence : Sentence) : Beliefs :=
  { beliefs with
    sentences :=
      (sentence :: beliefs.sentences.filter (·.key ≠ sentence.key)).take
        beliefs.capacity }

/-- The number of sentences. -/
def size (beliefs : Beliefs) : Nat :=
  beliefs.sentences.length

end Beliefs

end AttentiveReasoner.Knowledge
