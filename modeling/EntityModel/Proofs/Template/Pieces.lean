import EntityModel.Template.Basic

/-!
# The pieces of a rendered text

A rendered text is put together from pieces that the template fixes and values that are placed
between them (`Piece`). `piecesAll` keeps them apart; joined, they are what is rendered
(`renderAll_eq_pieces`). A loop over records gives the pieces of each of them, in order
(`pieces_loop`).
-/

namespace EntityModel.Template

/-- A piece of a rendered text: one that the template fixes, or a value that is placed there. -/
inductive Piece where
  | fixed (s : String)
  | placed (s : String)
  deriving DecidableEq, Repr

/-- The text of a piece. -/
def Piece.text : Piece → String
  | fixed s | placed s => s

/-- The text that pieces make up. -/
def Piece.join (ps : List Piece) : String := String.join (ps.map Piece.text)

@[simp] theorem Piece.join_nil : Piece.join [] = "" := rfl

@[simp] theorem Piece.join_append (ps qs : List Piece) :
    Piece.join (ps ++ qs) = Piece.join ps ++ Piece.join qs := by
  simp [Piece.join]

@[simp] theorem Piece.join_singleton (p : Piece) : Piece.join [p] = p.text := by
  simp [Piece.join]

theorem Piece.join_flatten (pss : List (List Piece)) :
    Piece.join pss.flatten = String.join (pss.map Piece.join) := by
  induction pss with
  | nil => rfl
  | cons ps pss ih => simp [ih]

section
variable (filters : List (String × Filter))

/-! ## Pieces of a template -/

mutual
/-- The pieces of a node. -/
def Node.pieces (scope : List (String × Value)) : Node → Except Error (List Piece)
  | .text s => .ok [.fixed s]
  | .output e => do return [.placed (← e.eval filters scope).write]
  | .loop name items body otherwise => do
    match ← (← items.eval filters scope).items with
    | [] => piecesAll scope otherwise
    | values => return (← values.mapM fun v => piecesAll ((name, v) :: scope) body).flatten
  | .condition test body otherwise => do
    if (← test.eval filters scope).isTrue then piecesAll scope body else piecesAll scope otherwise

/-- The pieces of several nodes. -/
def piecesAll (scope : List (String × Value)) : List Node → Except Error (List Piece)
  | [] => .ok []
  | n :: rest => do return (← n.pieces scope) ++ (← piecesAll scope rest)
end

/-- Where each item is mapped, the items that could be computed are mapped. -/
theorem mapM_map {α β γ ε : Type} (f : α → Except ε β) (g : β → γ) (xs : List α) :
    xs.mapM (fun x => (f x).map g) = (xs.mapM f).map (List.map g) := by
  induction xs with
  | nil => rfl
  | cons x xs ih =>
    rw [List.mapM_cons, List.mapM_cons, ih]
    cases f x with
    | error e => rfl
    | ok y => cases xs.mapM f <;> rfl

mutual
/-- What is rendered for a node is the text of its pieces. -/
theorem Node.render_eq_pieces (scope : List (String × Value)) :
    ∀ n : Node, n.render filters scope = (n.pieces filters scope).map Piece.join
  | .text s => by simp [Node.render, Node.pieces, Except.map, Piece.text]
  | .output e => by
    rw [Node.render, Node.pieces]
    cases e.eval filters scope with
    | error e => rfl
    | ok v => simp [bind, Except.bind, pure, Except.pure, Except.map, Piece.text]
  | .loop name items body otherwise => by
    have hbody : ∀ v, renderAll filters ((name, v) :: scope) body =
        (piecesAll filters ((name, v) :: scope) body).map Piece.join :=
      fun v => renderAll_eq_pieces ((name, v) :: scope) body
    rw [Node.render, Node.pieces]
    simp only [hbody, mapM_map, renderAll_eq_pieces scope otherwise]
    cases items.eval filters scope with
    | error e => rfl
    | ok v =>
      cases hitems : v.items with
      | error e => simp [hitems, bind, Except.bind, Except.map]
      | ok values =>
        cases values with
        | nil => simp [hitems, bind, Except.bind]
        | cons w ws =>
          simp only [hitems, bind, Except.bind]
          cases (w :: ws).mapM fun v => piecesAll filters ((name, v) :: scope) body with
          | error e => rfl
          | ok pss => exact congrArg Except.ok (Piece.join_flatten pss).symm
  | .condition test body otherwise => by
    rw [Node.render, Node.pieces, renderAll_eq_pieces scope body,
      renderAll_eq_pieces scope otherwise]
    cases test.eval filters scope with
    | error e => rfl
    | ok v => simp only [bind, Except.bind]; split <;> rfl

/-- What is rendered for nodes is the text of their pieces. -/
theorem renderAll_eq_pieces (scope : List (String × Value)) :
    ∀ ns : List Node, renderAll filters scope ns = (piecesAll filters scope ns).map Piece.join
  | [] => rfl
  | n :: rest => by
    rw [renderAll, piecesAll, Node.render_eq_pieces scope n, renderAll_eq_pieces scope rest]
    cases n.pieces filters scope with
    | error e => rfl
    | ok ps =>
      cases piecesAll filters scope rest with
      | error e => rfl
      | ok qs => exact congrArg Except.ok (Piece.join_append ps qs).symm
end

/-- A text that is read as nodes is rendered to the text of their pieces. -/
theorem render_eq_pieces (scope : List (String × Value)) {source : String} {ns : List Node}
    (h : read? source = some ns) :
    render filters source scope = (piecesAll filters scope ns).map Piece.join := by
  rw [render, h]
  exact renderAll_eq_pieces filters scope ns

/-! ## Nodes that give their pieces -/

variable {filters} {scope : List (String × Value)}

/-- Items of which each is computed are all computed. -/
theorem mapM_eq_ok {α β ε : Type} {f : α → Except ε β} {g : α → β} {xs : List α}
    (h : ∀ x ∈ xs, f x = .ok (g x)) : xs.mapM f = .ok (xs.map g) := by
  induction xs with
  | nil => rfl
  | cons x xs ih =>
    rw [List.mapM_cons, h x (List.mem_cons_self ..), ih fun y hy => h y (List.mem_cons_of_mem _ hy)]
    rfl

/-- A node in front of others gives its pieces in front of theirs. -/
theorem piecesAll_cons {n : Node} {rest : List Node} {ps qs : List Piece}
    (hn : n.pieces filters scope = .ok ps) (hrest : piecesAll filters scope rest = .ok qs) :
    piecesAll filters scope (n :: rest) = .ok (ps ++ qs) := by
  rw [piecesAll, hn, hrest]
  rfl

/-- Nodes in front of others give their pieces in front of those of the others. -/
theorem piecesAll_append {ns ms : List Node} {ps qs : List Piece}
    (hns : piecesAll filters scope ns = .ok ps) (hms : piecesAll filters scope ms = .ok qs) :
    piecesAll filters scope (ns ++ ms) = .ok (ps ++ qs) := by
  induction ns generalizing ps with
  | nil =>
    cases hns
    exact hms
  | cons n ns ih =>
    rw [piecesAll] at hns
    cases hn : n.pieces filters scope with
    | error e =>
      rw [hn] at hns
      cases hns
    | ok p =>
      cases hrest : piecesAll filters scope ns with
      | error e =>
        rw [hn, hrest] at hns
        cases hns
      | ok q =>
        rw [hn, hrest] at hns
        cases hns
        rw [List.append_assoc]
        exact piecesAll_cons hn (ih hrest)

/-- A node by itself. -/
theorem piecesAll_singleton {n : Node} {ps : List Piece} (hn : n.pieces filters scope = .ok ps) :
    piecesAll filters scope [n] = .ok ps :=
  (piecesAll_cons hn rfl).trans (congrArg _ (List.append_nil ps))

/-- A loop over records gives the pieces of each of them. -/
theorem pieces_loop {α : Type} {name : String} {items : Expression} {body : List Node}
    {xs : List α} {record : α → Value} {ps : α → List Piece}
    (hitems : items.eval filters scope = .ok (.list (xs.map record)))
    (hbody : ∀ x ∈ xs, piecesAll filters ((name, record x) :: scope) body = .ok (ps x)) :
    (Node.loop name items body []).pieces filters scope = .ok (xs.flatMap ps) := by
  have hrun : (xs.map record).mapM (fun v => piecesAll filters ((name, v) :: scope) body) =
      .ok (xs.map ps) := by
    rw [List.mapM_map]
    exact mapM_eq_ok hbody
  rw [Node.pieces, hitems]
  cases xs with
  | nil => rfl
  | cons x xs =>
    rw [List.map_cons] at hrun
    simp only [bind, Except.bind, Value.items, List.map_cons, hrun]
    rfl

/-- A condition that can be decided gives the pieces of one of its parts. -/
theorem pieces_condition {test : Expression} {body otherwise : List Node} {v : Value}
    (htest : test.eval filters scope = .ok v) :
    (Node.condition test body otherwise).pieces filters scope =
      if v.isTrue then piecesAll filters scope body else piecesAll filters scope otherwise := by
  rw [Node.pieces, htest]
  rfl

end

end EntityModel.Template
