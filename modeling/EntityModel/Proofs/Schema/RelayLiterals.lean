import EntityModel.Proofs.Schema.RelayText
import EntityModel.Proofs.Text.Caseless
import EntityModel.Proofs.Text.Literal

/-!
# The literals of a Relay schema

Which values a text places inside of literals in single quotation marks is decided by its fixed
parts (`Piece.quotedValues`). The bundled template places descriptions there, which are escaped, and
the names of classes, which are not (`Relay.quotes_pieces`). The conversion of a name neither drops
nor creates a character that has to be escaped (`Naming.isSpecial_className_iff`), so the literals
are as they should be exactly if no entity has such a character in its name
(`literals_unbroken_iff`).
-/

namespace EntityModel

/-! ## Names of classes -/

/-- The numbers of the characters that cannot stand for themselves in a literal. -/
def Literal.specials : List Nat := [0x27, 0x5C, 0x0A, 0x0D, 0x2028, 0x2029]

theorem Literal.toNat_mem_specials {c : Char} (h : isSpecial c = true) : c.toNat ∈ specials := by
  simp only [isSpecial, isLineEnd, Bool.or_eq_true, beq_iff_eq] at h
  rcases h with (rfl | rfl) | ((rfl | rfl) | rfl) | rfl <;> decide

/-- A character that cannot stand for itself in a literal has no case, and separates no words. -/
theorem Literal.caseless_of_isSpecial {c : Char} (h : isSpecial c = true) :
    Text.Caseless c ∧ Text.isSeparator [c] = false := by
  have htables : ∀ k ∈ specials, 0 < k ∧ Text.LeftAlone Text.upperSequences Text.upperRows k ∧
      Text.LeftAlone Text.lowerSequences Text.lowerRows k := by
    decide +kernel
  have hothers : ∀ k ∈ specials,
      (∀ n < 128, ((Char.ofNat n).toUpper = Char.ofNat k ↔ Char.ofNat n = Char.ofNat k) ∧
        ((Char.ofNat n).toLower = Char.ofNat k ↔ Char.ofNat n = Char.ofNat k)) ∧
      Char.ofNat k ∉ ['\u03a3', '\u03c2', '\u03c3'] ∧
      Text.isSeparator [Char.ofNat k] = false := by
    decide +kernel
  obtain ⟨hpos, hupper, hlower⟩ := htables c.toNat (toNat_mem_specials h)
  obtain ⟨hascii, hsigma, hseparator⟩ := hothers c.toNat (toNat_mem_specials h)
  rw [Char.ofNat_toNat] at hascii hsigma hseparator
  exact ⟨.of_tables hpos hupper hlower hascii hsigma, hseparator⟩

/-- The name of a class has the characters to be escaped that the name of its entity has. -/
theorem Naming.isSpecial_className_iff (n : String) {c : Char} (h : Literal.isSpecial c = true) :
    c ∈ (className n).toList ↔ c ∈ n.toList := by
  obtain ⟨hcaseless, hseparator⟩ := Literal.caseless_of_isSpecial h
  rw [className, pascalCase, String.toList_ofList, hcaseless.mem_pascalCase_iff hseparator]

/-- The name of a class is as it was after escaping exactly if nothing in the name of its entity has
to be escaped. -/
theorem Naming.escapeLiteral_className_iff (n : String) :
    escapeLiteral (className n) = className n ↔ ∀ c ∈ n.toList, Literal.isSpecial c = false := by
  simp only [escapeLiteral_eq_self_iff, ← Bool.not_eq_true]
  constructor
  · intro h c hc hspecial
    exact h c ((isSpecial_className_iff n hspecial).2 hc) hspecial
  · intro h c hc hspecial
    exact h c ((isSpecial_className_iff n hspecial).1 hc) hspecial

namespace Template.Piece

/-! ## Values in literals -/

/-- Whether a literal that is open in front of a fixed part is closed behind it, or the other way
round: its quotation marks open and close literals in turn. -/
def turns (s : String) : Bool := s.toList.count '\x27' % 2 == 1

theorem turns_ofList (cs : List Char) : turns (String.ofList cs) = (cs.count '\x27' % 2 == 1) := by
  rw [turns, String.toList_ofList]

/-- Whether a literal is open behind pieces, and the values that they place inside of literals,
given whether one is open in front of them. What is placed is not looked at: it is meant to be
inside or outside as a whole. -/
def scanLiterals (inside : Bool) : List Piece → Bool × List String
  | [] => (inside, [])
  | fixed s :: rest => scanLiterals (inside ^^ turns s) rest
  | placed v :: rest =>
    let (behind, vs) := scanLiterals inside rest
    (behind, if inside then v :: vs else vs)

/-- The values that pieces place inside of literals. -/
def quotedValues (ps : List Piece) : List String := (scanLiterals false ps).2

theorem scanLiterals_append (inside : Bool) (ps qs : List Piece) :
    scanLiterals inside (ps ++ qs) =
      ((scanLiterals (scanLiterals inside ps).1 qs).1,
        (scanLiterals inside ps).2 ++ (scanLiterals (scanLiterals inside ps).1 qs).2) := by
  fun_induction scanLiterals inside ps with
  | case1 inside => rfl
  | case2 inside s rest ih => exact ih
  | case3 inside v rest behind vs h ih =>
    rw [List.cons_append, scanLiterals, ih, h]
    cases inside <;> rfl

/-- Pieces close the literals that they open, and the one that may be open in front of them, and
place the given values in them. -/
def QuotesFrom (inside : Bool) (ps : List Piece) (vs : List String) : Prop :=
  scanLiterals inside ps = (false, vs)

namespace QuotesFrom

variable {inside : Bool} {s v : String} {cs : List Char} {ps : List Piece} {vs : List String}

theorem nil : QuotesFrom false [] [] := rfl

theorem fixed_cons {b : Bool} (hs : turns s = b) (h : QuotesFrom (inside ^^ b) ps vs) :
    QuotesFrom inside (fixed s :: ps) vs := by
  subst hs
  exact h

/-- A short fixed part: its quotation marks are counted where it stands. -/
theorem text (h : QuotesFrom (inside ^^ (cs.count '\x27' % 2 == 1)) ps vs) :
    QuotesFrom inside (fixed (String.ofList cs) :: ps) vs :=
  fixed_cons (turns_ofList cs) h

/-- A value is placed in a literal if one is open in front of it. -/
theorem placed_cons (h : QuotesFrom inside ps vs) :
    QuotesFrom inside (placed v :: ps) (if inside then v :: vs else vs) := by
  rw [QuotesFrom] at h
  rw [QuotesFrom, scanLiterals, h]

theorem outside (h : QuotesFrom false ps vs) : QuotesFrom false (placed v :: ps) vs :=
  placed_cons h

theorem quoted (h : QuotesFrom true ps vs) : QuotesFrom true (placed v :: ps) (v :: vs) :=
  placed_cons h

end QuotesFrom

/-- Pieces close the literals that they open, and place the given values in them. -/
def Quotes (ps : List Piece) (vs : List String) : Prop := scanLiterals false ps = (false, vs)

namespace Quotes

theorem quotedValues_eq {ps : List Piece} {vs : List String} (h : Quotes ps vs) :
    quotedValues ps = vs :=
  congrArg Prod.snd h

theorem append {ps qs : List Piece} {vs ws : List String} (hp : Quotes ps vs) (hq : Quotes qs ws) :
    Quotes (ps ++ qs) (vs ++ ws) := by
  rw [Quotes, scanLiterals_append, hp, hq]

theorem flatMap {α : Type} {ps : α → List Piece} {vs : α → List String} {xs : List α}
    (h : ∀ x ∈ xs, Quotes (ps x) (vs x)) : Quotes (xs.flatMap ps) (xs.flatMap vs) := by
  induction xs with
  | nil => rfl
  | cons x xs ih =>
    obtain ⟨hx, hxs⟩ := List.forall_mem_cons.1 h
    rw [List.flatMap_cons, List.flatMap_cons]
    exact hx.append (ih hxs)

/-- A fixed part in front, by itself, places nothing. -/
theorem fixed_cons {s : String} {ps : List Piece} {vs : List String} (hs : turns s = false)
    (hp : Quotes ps vs) : Quotes (fixed s :: ps) vs :=
  QuotesFrom.fixed_cons hs hp

end Quotes

end Template.Piece

namespace Schema.Relay

open Template Template.Piece

/-! ## Literals of the bundled template -/

set_option maxRecDepth 8000 in
/-- The longer fixed parts close the literals that they open; the one before the resolver of a
connection closes that of a description. -/
theorem turns_parts : turns opening = false ∧ turns loading = false ∧ turns typing = false ∧
    turns declaring = false ∧ turns closing = false ∧ turns ending = false ∧ turns paging = true :=
  ⟨(turns_ofList _).trans rfl, (turns_ofList _).trans rfl, (turns_ofList _).trans rfl,
    (turns_ofList _).trans rfl, (turns_ofList _).trans rfl, (turns_ofList _).trans rfl,
    (turns_ofList _).trans rfl⟩

theorem quotes_importEntry (o : Object) : Quotes (importEntry o) [] :=
  QuotesFrom.text (.outside (.text (.outside (.text .nil))))

theorem quotes_loadingCase (o : Object) : Quotes (loadingCase o) [o.className] :=
  QuotesFrom.text (.quoted (.text (.outside (.text .nil))))

theorem quotes_typingCase (o : Object) : Quotes (typingCase o) [] :=
  QuotesFrom.text (.outside (.text (.outside (.text .nil))))

theorem quotes_fieldEntry (f : Field) :
    Quotes (fieldEntry f) [Naming.escapeLiteral f.description] := by
  obtain ⟨-, -, -, -, -, -, hpaging⟩ := turns_parts
  refine QuotesFrom.text (.outside (.text (.outside (.text (.quoted ?_)))))
  by_cases hkind : f.kind = .reference .connection
  · rw [if_pos hkind]
    exact .fixed_cons hpaging (.outside (.text (.outside (.text .nil))))
  · rw [if_neg hkind]
    exact .text .nil

theorem quotes_connectionBlock (o : Object) :
    Quotes (connectionBlock o) (if o.connection.isSome then [o.className] else []) := by
  rw [connectionBlock]
  cases o.connection with
  | none => exact QuotesFrom.nil
  | some connection =>
    exact QuotesFrom.text (.outside (.text (.quoted (.text (.outside (.text .nil))))))

/-- What the declaration of an object has in literals: the name of the class, of the type and for
global ids, the descriptions of the object and its fields, and the name for its connection. -/
def declaredLiterals (o : Object) : List String :=
  [o.className, Naming.escapeLiteral o.description, o.className] ++
    o.fields.flatMap (fun f => [Naming.escapeLiteral f.description]) ++
    if o.connection.isSome then [o.className] else []

theorem quotes_declaration (idField : String) (o : Object) :
    Quotes (declaration idField o) (declaredLiterals o) := by
  obtain ⟨-, -, -, -, hclosing, -, -⟩ := turns_parts
  refine Quotes.append (Quotes.append ?_ (.flatMap fun f _ => quotes_fieldEntry f))
    (.fixed_cons hclosing (quotes_connectionBlock o))
  exact QuotesFrom.text (.outside (.text (.quoted (.text (.quoted (.text (.quoted (.text
    (.outside (.text .nil))))))))))

/-- The bundled template places class names and escaped descriptions in literals, and nothing
else. -/
theorem quotes_pieces (idField : String) (objects : List Object) :
    Quotes (pieces idField objects)
      (objects.map Object.className ++ objects.flatMap declaredLiterals) := by
  obtain ⟨hopening, hloading, htyping, hdeclaring, -, hending, -⟩ := turns_parts
  have hnone : objects.flatMap (fun _ => ([] : List String)) = [] :=
    List.flatMap_eq_nil_iff.2 fun _ _ => rfl
  have himports : Quotes (objects.flatMap importEntry) (objects.flatMap fun _ => []) :=
    .flatMap fun o _ => quotes_importEntry o
  have hcases : Quotes (objects.flatMap loadingCase) (objects.flatMap fun o => [o.className]) :=
    .flatMap fun o _ => quotes_loadingCase o
  have htypes : Quotes (objects.flatMap typingCase) (objects.flatMap fun _ => []) :=
    .flatMap fun o _ => quotes_typingCase o
  have hdeclarations : Quotes (objects.flatMap (declaration idField))
      (objects.flatMap declaredLiterals) :=
    .flatMap fun o _ => quotes_declaration idField o
  have hend : Quotes [fixed ending] [] := .fixed_cons hending rfl
  have hall := ((((himports.fixed_cons hopening).append (hcases.fixed_cons hloading)).append
    (htypes.fixed_cons htyping)).append (hdeclarations.fixed_cons hdeclaring)).append hend
  rw [hnone, List.nil_append, List.append_nil, List.append_nil, ← List.map_eq_flatMap] at hall
  exact hall

theorem mem_declaredLiterals {o : Object} {v : String} :
    v ∈ declaredLiterals o ↔ v = o.className ∨ v = Naming.escapeLiteral o.description ∨
      ∃ f ∈ o.fields, v = Naming.escapeLiteral f.description := by
  have hconnection : v ∈ (if o.connection.isSome then [o.className] else []) → v = o.className := by
    split <;> simp
  simp only [declaredLiterals, List.mem_append, List.mem_cons, List.mem_flatMap, List.not_mem_nil,
    or_false]
  constructor
  · rintro (((h | h | h) | h) | h)
    · exact .inl h
    · exact .inr (.inl h)
    · exact .inl h
    · exact .inr (.inr h)
    · exact .inl (hconnection h)
  · rintro (h | h | h)
    · exact .inl (.inl (.inl h))
    · exact .inl (.inl (.inr (.inl h)))
    · exact .inl (.inr h)

/-- What stands in the literals: the name of a class, or the escaped description of an object or a
field. -/
theorem mem_quotedValues_pieces {idField : String} {objects : List Object} {v : String} :
    v ∈ quotedValues (pieces idField objects) ↔ ∃ o ∈ objects, v = o.className ∨
      v = Naming.escapeLiteral o.description ∨
      ∃ f ∈ o.fields, v = Naming.escapeLiteral f.description := by
  rw [(quotes_pieces idField objects).quotedValues_eq, List.mem_append, List.mem_map,
    List.mem_flatMap]
  simp only [← mem_declaredLiterals, or_iff_right_iff_imp]
  rintro ⟨o, ho, rfl⟩
  exact ⟨o, ho, mem_declaredLiterals.2 (.inl rfl)⟩

end Schema.Relay

/-! ## Main statement -/

/-- After the parse of a model, also a stopped one, of which the schema is not refused: what the
text has in literals are the names of classes and the escaped descriptions, and the latter are as
they should be. All literals are, and the names of classes need not be escaped, exactly if no entity
has a character in its name that would have to be. -/
theorem literals_unbroken_iff {t : ValidationTables} {options : SchemaOptions}
    {start : Schema.Builder} (hstart : Schema.Builder.ofOptions t options = .ok start) (m : Model)
    {objects : List Schema.Object} :
    let b := (m.parseWith start).1
    let ps := Schema.Relay.pieces options.idField objects
    b.orderedObjects = .ok objects →
      b.render Schema.relayTemplate = .ok (Template.Piece.join ps) ∧
      Template.Piece.quotedValues ps =
        objects.map Schema.Object.className ++ objects.flatMap Schema.Relay.declaredLiterals ∧
      (∀ o ∈ objects, Literal.IsBody (Naming.escapeLiteral o.description).toList ∧
        ∀ f ∈ o.fields, Literal.IsBody (Naming.escapeLiteral f.description).toList) ∧
      ((∀ v ∈ Template.Piece.quotedValues ps, Literal.IsBody v.toList) ∧
          (∀ o ∈ objects, Naming.escapeLiteral o.className = o.className) ↔
        ∀ n ∈ m.delivered.flatMap Event.declares, ∀ c ∈ n.toList,
          Literal.isSpecial c = false) := by
  intro b ps hb
  obtain ⟨hnames, hobjects⟩ := Schema.Builder.objects_of_parse hstart m hb
  have hplain : (∀ o ∈ objects, Naming.escapeLiteral o.className = o.className) ↔
      ∀ n ∈ m.delivered.flatMap Event.declares, ∀ c ∈ n.toList, Literal.isSpecial c = false := by
    simp only [← hnames.mem_iff, List.forall_mem_map]
    refine forall₂_congr fun o ho => ?_
    rw [(hobjects o ho).1.className, Naming.escapeLiteral_className_iff]
  refine ⟨?_, (Schema.Relay.quotes_pieces _ _).quotedValues_eq, fun o _ => ?_, ?_⟩
  · exact (Schema.Builder.render_relayTemplate hstart m).trans (congrArg (Except.map _) hb)
  · exact ⟨Naming.isBody_escapeLiteral _, fun f _ => Naming.isBody_escapeLiteral _⟩
  · rw [← hplain, and_iff_right_iff_imp]
    intro hclasses v hv
    rcases Schema.Relay.mem_quotedValues_pieces.1 hv with ⟨o, ho, rfl | rfl | ⟨f, -, rfl⟩⟩
    · rw [← hclasses o ho]
      exact Naming.isBody_escapeLiteral _
    · exact Naming.isBody_escapeLiteral _
    · exact Naming.isBody_escapeLiteral _

/-- The name of a class ends its literal early, if the name of the entity has a quotation mark. -/
theorem literals_broken_of_quote :
    let key := AttributeDecl.full (AttributeConfig.empty.withFlag "in_key_hash" (.bool true))
    let m := Model.empty.insert "o'brien" (Entity.empty.withAttribute "id" key)
    let start : Schema.Builder := ⟨.ofTables .builtIn, "", "graphql", "__id_unique", .empty⟩
    Schema.Builder.ofOptions .builtIn { SchemaOptions.builtIn with template := some "" } =
        .ok start ∧
      ∃ objects, (m.parseWith start).1.orderedObjects = .ok objects ∧
        "O'brien" ∈ Template.Piece.quotedValues (Schema.Relay.pieces "__id_unique" objects) ∧
        ¬ Literal.IsBody "O'brien".toList ∧ Naming.escapeLiteral "O'brien" = "O\\'brien" ∧
        Literal.read? "'O'brien') \x7b".toList = some (some "O", "brien') \x7b".toList) := by
  intro key m start
  have hstart : Schema.Builder.ofOptions .builtIn
      { SchemaOptions.builtIn with template := some "" } = .ok start := rfl
  have hclasses : ((m.parseWith start).1.orderedObjects.toOption.map
      (List.map Schema.Object.className)) = some ["O'brien"] := by
    decide +kernel
  have hescaped : Naming.escapeLiteral "O'brien" = "O\\'brien" := by decide +kernel
  have hread : Literal.read? "'O'brien') \x7b".toList =
      some (some "O", "brien') \x7b".toList) := by
    decide +kernel
  have hbody : ¬ Literal.IsBody "O'brien".toList := by
    rintro (_ | ⟨-, _ | ⟨hquote, -⟩⟩)
    exact absurd hquote (by decide)
  cases hobjects : (m.parseWith start).1.orderedObjects with
  | error e => simp [hobjects, Except.toOption] at hclasses
  | ok objects =>
    obtain ⟨-, hquoted, -, -⟩ := literals_unbroken_iff hstart m hobjects
    have hclass : objects.map Schema.Object.className = ["O'brien"] := by
      simpa [hobjects, Except.toOption] using hclasses
    have hmem : "O'brien" ∈ Template.Piece.quotedValues
        (Schema.Relay.pieces "__id_unique" objects) := by
      refine hquoted ▸ List.mem_append_left _ ?_
      simp [hclass]
    exact ⟨hstart, objects, rfl, hmem, hbody, hescaped, hread⟩

end EntityModel
