import Mathlib.Data.List.Forall2

/-!
# Texts by their characters

What a closed text is read as comes down to its characters, and to decode those of a literal is slow
in a proof. `Spelled` says what the characters of a text are. A text that is put together of
literals is spelled as these are, one behind the other (`Spelled.append`) or line by line
(`Spelled.lines`), so that its characters are found by unification.
-/

namespace EntityModel.Text

/-- The characters of a text. -/
def Spelled (s : String) (cs : List Char) : Prop := s.toList = cs

namespace Spelled

theorem literal (cs : List Char) : Spelled (String.ofList cs) cs := String.toList_ofList

theorem append {s t : String} {cs ds : List Char} (hs : Spelled s cs) (ht : Spelled t ds) :
    Spelled (s ++ t) (cs ++ ds) :=
  String.toList_append.trans (congrArg₂ (· ++ ·) hs ht)

/-- Lines are spelled as the characters of each, with the line ends. -/
theorem lines {ls : List String} {css : List (List Char)} (h : List.Forall₂ Spelled ls css) :
    Spelled (String.join (ls.map (· ++ "\n"))) (css.flatMap (· ++ ['\n'])) := by
  induction h with
  | nil => rfl
  | cons hl _ ih =>
    rw [List.map_cons, String.join_cons, List.flatMap_cons]
    exact (hl.append (literal ['\n'])).append ih

end Spelled

end EntityModel.Text
