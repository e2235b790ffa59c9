namespace Shading

/-!
# Closed vocabularies

Opcodes, element types, builtin functions and the like are finite lists of words.  Each word has a
name, used in text, and a code, its position in the list, used in instruction words.

* `Vocabulary.ofName?` — the word with exactly the given name.
* `Vocabulary.code`, `Vocabulary.ofCode?` — positions and back.
-/

/-- Finitely many words in a fixed order, each with a name. -/
class Vocabulary (α : Type) where
  words : List α
  name : α → String

namespace Vocabulary

variable {α : Type} [Vocabulary α]

/-- The word called `text`, if there is one. -/
def ofName? (text : String) : Option α :=
  (words : List α).find? fun word => name word == text

/-- The word at position `code`, if there is one. -/
def ofCode? (code : Nat) : Option α :=
  (words : List α)[code]?

/-- The position of `word` in its vocabulary. -/
def code [DecidableEq α] (word : α) : Nat :=
  (words : List α).idxOf word

end Vocabulary

end Shading
