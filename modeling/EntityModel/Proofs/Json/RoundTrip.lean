import EntityModel.Json.Reader
import EntityModel.Proofs.Json.Lexemes
import EntityModel.Proofs.Lists

/-!
# Reading back what is written as JSON

Both layouts of a plain document are lexed as its tokens (`lexed_compact`, `lexed_pretty`), and the
machine makes of the tokens the document again, as long as the brackets around it and its own are
not nested too deeply (`foldlM_tokens`). So the written text is read as what was written
(`read?_compact`, `read?_pretty`). What is read from any text is nested within the limit of reading
(`parsed_of_read?`).
-/

namespace EntityModel

namespace Json

open Document (Plain)

mutual
/-- The tokens that a document is written with. -/
def tokens : Document → List Token
  | .null | .notFinite | .unreadable => [.null]
  | .bool b => [.bool b]
  | .number n => [.number (some n)]
  | .text s => [.text (some s)]
  | .list [] => [.mark '[', .mark ']']
  | .list (d :: rest) => .mark '[' :: (tokens d ++ itemTokens rest)
  | .table [] => [.mark '\x7b', .mark '\x7d']
  | .table ((k, d) :: rest) =>
    .mark '\x7b' :: .text (some k) :: .mark ':' :: (tokens d ++ memberTokens rest)

/-- The tokens of the items after the first one, and the closing bracket. -/
def itemTokens : List Document → List Token
  | [] => [.mark ']']
  | d :: rest => .mark ',' :: (tokens d ++ itemTokens rest)

/-- The tokens of the members after the first one, and the closing bracket. -/
def memberTokens : List (String × Document) → List Token
  | [] => [.mark '\x7d']
  | (k, d) :: rest =>
    .mark ',' :: .text (some k) :: .mark ':' :: (tokens d ++ memberTokens rest)
end

/-! ## The tokens of both layouts -/

theorem lexed_text (s : String) : Lexed (quoted s) [.text (some s)] := by
  have h := Lexed.quoted s .nil
  rwa [List.append_nil] at h

section
variable {ds : List Document} {ms : List (String × Document)}

/-- What stands behind an item or a member starts with a new lexeme. -/
theorem compactItems_eq_cons (ds : List Document) :
    ∃ c rest, compactItems ds = c :: rest ∧ EndsScalar c := by
  cases ds <;> exact ⟨_, _, rfl, rfl, rfl⟩

theorem compactMembers_eq_cons (ms : List (String × Document)) :
    ∃ c rest, compactMembers ms = c :: rest ∧ EndsScalar c := by
  cases ms <;> exact ⟨_, _, rfl, rfl, rfl⟩

theorem lexed_compactItems (h : ∀ d ∈ ds, Lexed (compactChars d) (tokens d)) :
    Lexed (compactItems ds) (itemTokens ds) := by
  induction ds with
  | nil => exact .mark rfl .nil
  | cons d rest ih =>
    obtain ⟨hd, hrest⟩ := List.forall_mem_cons.1 h
    exact .mark rfl (hd.append (ih hrest) (compactItems_eq_cons rest))

theorem lexed_compactMembers (h : ∀ m ∈ ms, Lexed (compactChars m.2) (tokens m.2)) :
    Lexed (compactMembers ms) (memberTokens ms) := by
  induction ms with
  | nil => exact .mark rfl .nil
  | cons m rest ih =>
    obtain ⟨hm, hrest⟩ := List.forall_mem_cons.1 h
    exact .mark rfl (.quoted _ (.mark rfl (hm.append (ih hrest) (compactMembers_eq_cons rest))))

/-- The compact text of a plain document has its tokens. -/
theorem lexed_compact {n : Nat} {d : Document} (h : d.Plain n) :
    Lexed (compactChars d) (tokens d) := by
  induction h with
  | null => exact lexed_null
  | bool b => exact lexed_bool b
  | number hk => exact lexed_number hk
  | text s => exact lexed_text s
  | @list n items _ ih =>
    cases items with
    | nil => exact .mark rfl (.mark rfl .nil)
    | cons d rest =>
      obtain ⟨hd, hrest⟩ := List.forall_mem_cons.1 ih
      exact .mark rfl (hd.append (lexed_compactItems hrest) (compactItems_eq_cons rest))
  | @table n members _ ih =>
    cases members with
    | nil => exact .mark rfl (.mark rfl .nil)
    | cons m rest =>
      obtain ⟨hm, hrest⟩ := List.forall_mem_cons.1 ih
      exact .mark rfl (.quoted _ (.mark rfl
        (hm.append (lexed_compactMembers hrest) (compactMembers_eq_cons rest))))

/-- A new line is blank. -/
theorem Lexed.newLine (level : Nat) {cs : List Char} {ts : List Token} (h : Lexed cs ts) :
    Lexed (newLine level ++ cs) ts := by
  have hblanks : ∀ n, Lexed (List.replicate n ' ' ++ cs) ts := fun n => by
    induction n with
    | zero => exact h
    | succ n ih => exact .blank rfl ih
  exact .blank rfl (hblanks _)

/-- An item or a member that something else follows has a line of its own. -/
theorem Lexed.prettyItem {level : Nat} {cs es : List Char} {ts us : List Token}
    (h : Lexed cs ts) (h' : Lexed es us) (hes : ∃ c rest, es = c :: rest ∧ EndsScalar c) :
    Lexed (Json.newLine level ++ cs ++ es) (ts ++ us) := by
  rw [List.append_assoc]
  exact (h.append h' hes).newLine level

theorem Lexed.prettyMember {level : Nat} {k : String} {cs es : List Char} {ts us : List Token}
    (h : Lexed cs ts) (h' : Lexed es us) (hes : ∃ c rest, es = c :: rest ∧ EndsScalar c) :
    Lexed (Json.newLine level ++ Json.quoted k ++ ':' :: ' ' :: (cs ++ es))
      (.text (some k) :: .mark ':' :: (ts ++ us)) := by
  have hcolon : Lexed (':' :: ' ' :: (cs ++ es)) (.mark ':' :: (ts ++ us)) :=
    .mark rfl (.blank rfl (h.append h' hes))
  rw [List.append_assoc]
  exact (hcolon.quoted k).newLine level

theorem prettyItems_eq_cons (level : Nat) (ds : List Document) :
    ∃ c rest, prettyItems level ds = c :: rest ∧ EndsScalar c := by
  cases ds <;> exact ⟨_, _, rfl, rfl, rfl⟩

theorem prettyMembers_eq_cons (level : Nat) (ms : List (String × Document)) :
    ∃ c rest, prettyMembers level ms = c :: rest ∧ EndsScalar c := by
  cases ms <;> exact ⟨_, _, rfl, rfl, rfl⟩

theorem lexed_prettyItems {level : Nat}
    (h : ∀ d ∈ ds, Lexed (prettyChars (level + 1) d) (tokens d)) :
    Lexed (prettyItems level ds) (itemTokens ds) := by
  induction ds with
  | nil => exact .newLine level (.mark rfl .nil)
  | cons d rest ih =>
    obtain ⟨hd, hrest⟩ := List.forall_mem_cons.1 h
    exact .mark rfl (hd.prettyItem (ih hrest) (prettyItems_eq_cons level rest))

theorem lexed_prettyMembers {level : Nat}
    (h : ∀ m ∈ ms, Lexed (prettyChars (level + 1) m.2) (tokens m.2)) :
    Lexed (prettyMembers level ms) (memberTokens ms) := by
  induction ms with
  | nil => exact .newLine level (.mark rfl .nil)
  | cons m rest ih =>
    obtain ⟨hm, hrest⟩ := List.forall_mem_cons.1 h
    exact .mark rfl (hm.prettyMember (ih hrest) (prettyMembers_eq_cons level rest))

/-- The text of a plain document with one item or member a line has its tokens. -/
theorem lexed_pretty {n : Nat} {d : Document} (h : d.Plain n) (level : Nat) :
    Lexed (prettyChars level d) (tokens d) := by
  induction h generalizing level with
  | null => exact lexed_null
  | bool b => exact lexed_bool b
  | number hk => exact lexed_number hk
  | text s => exact lexed_text s
  | @list n items _ ih =>
    cases items with
    | nil => exact .mark rfl (.mark rfl .nil)
    | cons d rest =>
      obtain ⟨hd, hrest⟩ := List.forall_mem_cons.1 ih
      have hitems := lexed_prettyItems fun d hd => hrest d hd (level + 1)
      exact .mark rfl ((hd (level + 1)).prettyItem hitems (prettyItems_eq_cons level rest))
  | @table n members _ ih =>
    cases members with
    | nil => exact .mark rfl (.mark rfl .nil)
    | cons m rest =>
      obtain ⟨hm, hrest⟩ := List.forall_mem_cons.1 ih
      have hmembers := lexed_prettyMembers fun m hm => hrest m hm (level + 1)
      exact .mark rfl ((hm (level + 1)).prettyMember hmembers (prettyMembers_eq_cons level rest))

end

/-- The tokens of a text are those that it is lexed as. -/
theorem Lexed.tokens? {cs : List Char} {ts : List Token} (h : Lexed cs ts) :
    tokens? cs = some ts := by
  obtain ⟨ls, hls, hscan⟩ := h
  have hscan := hscan [] [] fun _ h => nomatch h
  rw [List.append_nil, List.append_nil] at hscan
  rw [Json.tokens?, Lexeme.scan?, hscan]
  simp [Lexeme.scanFrom?, Lexeme.finish?, hls]

/-! ## The machine on tokens -/

open Machine

/-- A value may stand where a list may also end. -/
theorem foldlM_tokens_valueOrEnd (d : Document) (stack : List Frame) :
    (tokens d).foldlM step? ⟨stack, .valueOrEnd⟩ = (tokens d).foldlM step? ⟨stack, .value⟩ := by
  cases d with
  | list items => cases items <;> rfl
  | table members => cases members <;> rfl
  | _ => rfl

section
variable {outer : List Frame} {ds : List Document} {ms : List (String × Document)}

/-- The items behind those that were read already, up to the closing bracket. -/
theorem foldlM_itemTokens (hdepth : outer.length + 1 ≤ greatestDepth)
    (h : ∀ d ∈ ds, ∀ read, (tokens d).foldlM step? ⟨.list read :: outer, .value⟩ =
      some (Machine.deliver d (.list read :: outer))) (read : List Document) :
    (itemTokens ds).foldlM step? ⟨.list read :: outer, .commaOrEnd⟩ =
      some (Machine.deliver (.list (read.reverse ++ ds)) outer) := by
  induction ds generalizing read with
  | nil =>
    have hclose : close (outer.length + 1) (.list read) = .list (read.reverse ++ []) := by
      rw [close, if_pos hdepth, List.append_nil]
    exact congrArg (fun d => some (Machine.deliver d outer)) hclose
  | cons d rest ih =>
    obtain ⟨hd, hrest⟩ := List.forall_mem_cons.1 h
    have hcomma : (itemTokens (d :: rest)).foldlM step? ⟨.list read :: outer, .commaOrEnd⟩ =
        (tokens d ++ itemTokens rest).foldlM step? ⟨.list read :: outer, .value⟩ := rfl
    rw [hcomma, List.foldlM_append, hd read]
    refine (ih hrest (d :: read)).trans ?_
    rw [List.reverse_cons, List.append_assoc, List.singleton_append]

/-- The members behind those that were read already, up to the closing bracket. -/
theorem foldlM_memberTokens (hdepth : outer.length + 1 ≤ greatestDepth)
    (h : ∀ m ∈ ms, ∀ read key, (tokens m.2).foldlM step? ⟨.table read key :: outer, .value⟩ =
      some (Machine.deliver m.2 (.table read key :: outer))) (read : List (String × Document)) :
    (memberTokens ms).foldlM step?
        ⟨.table (read.map fun m => (some m.1, m.2)) none :: outer, .commaOrEnd⟩ =
      some (Machine.deliver (.table (read.reverse ++ ms)) outer) := by
  induction ms generalizing read with
  | nil =>
    have hread : (read.map fun m => (some m.1, m.2)).reverse.mapM
        (fun m : Option String × Document => m.1.map fun k => (k, m.2)) = some read.reverse := by
      rw [← List.map_reverse, List.mapM_map, mapM_eq_some]
      exact List.forall₂_same.2 fun _ _ => rfl
    have hclose : close (outer.length + 1) (.table (read.map fun m => (some m.1, m.2)) none) =
        .table (read.reverse ++ []) := by
      simp only [close, hread, if_pos hdepth, List.append_nil]
    exact congrArg (fun d => some (Machine.deliver d outer)) hclose
  | cons m rest ih =>
    obtain ⟨hm, hrest⟩ := List.forall_mem_cons.1 h
    have hcomma : (memberTokens (m :: rest)).foldlM step?
          ⟨.table (read.map fun m => (some m.1, m.2)) none :: outer, .commaOrEnd⟩ =
        (tokens m.2 ++ memberTokens rest).foldlM step?
          ⟨.table (read.map fun m => (some m.1, m.2)) (some m.1) :: outer, .value⟩ := rfl
    rw [hcomma, List.foldlM_append, hm]
    refine (ih hrest (m :: read)).trans ?_
    rw [List.reverse_cons, List.append_assoc, List.singleton_append]

/-- The machine makes of the tokens of a document that document, if there is room for its brackets
within those that are open. -/
theorem foldlM_tokens {n : Nat} {d : Document} (h : d.Plain n) (stack : List Frame)
    (hn : stack.length + n ≤ greatestDepth) :
    (tokens d).foldlM step? ⟨stack, .value⟩ = some (Machine.deliver d stack) := by
  induction h generalizing stack with
  | null | bool | number | text => rfl
  | @list n items _ ih =>
    have hdepth : stack.length + 1 ≤ greatestDepth := by omega
    have hroom : ∀ d ∈ items, ∀ read, (tokens d).foldlM step? ⟨.list read :: stack, .value⟩ =
        some (Machine.deliver d (.list read :: stack)) := fun d hd read =>
      ih d hd _ (by rw [List.length_cons]; omega)
    cases items with
    | nil => exact congrArg (fun d => some (Machine.deliver d stack)) (if_pos hdepth)
    | cons d rest =>
      obtain ⟨hd, hrest⟩ := List.forall_mem_cons.1 hroom
      have hopen : (tokens (.list (d :: rest))).foldlM step? ⟨stack, .value⟩ =
          (tokens d ++ itemTokens rest).foldlM step? ⟨.list [] :: stack, .valueOrEnd⟩ := rfl
      rw [hopen, List.foldlM_append, foldlM_tokens_valueOrEnd, hd []]
      exact foldlM_itemTokens hdepth hrest [d]
  | @table n members _ ih =>
    have hdepth : stack.length + 1 ≤ greatestDepth := by omega
    have hroom : ∀ m ∈ members, ∀ read key,
        (tokens m.2).foldlM step? ⟨.table read key :: stack, .value⟩ =
          some (Machine.deliver m.2 (.table read key :: stack)) := fun m hm read key =>
      ih m hm _ (by rw [List.length_cons]; omega)
    cases members with
    | nil => exact congrArg (fun d => some (Machine.deliver d stack)) (if_pos hdepth)
    | cons m rest =>
      obtain ⟨hm, hrest⟩ := List.forall_mem_cons.1 hroom
      have hopen : (tokens (.table (m :: rest))).foldlM step? ⟨stack, .value⟩ =
          (tokens m.2 ++ memberTokens rest).foldlM step?
            ⟨.table [] (some m.1) :: stack, .value⟩ := rfl
      rw [hopen, List.foldlM_append, hm]
      exact foldlM_memberTokens hdepth hrest [m]

end

/-! ## Reading what was written -/

/-- A text that has the tokens of a plain document is read as that document. -/
theorem Lexed.ofChars? {cs : List Char} {d : Document} (h : Lexed cs (tokens d))
    (hd : d.Plain greatestDepth) : ofChars? cs = some d := by
  have hrun := foldlM_tokens hd [] (Nat.le_of_eq (Nat.zero_add _))
  rw [Json.ofChars?, h.tokens?, Option.bind_eq_bind, Option.bind_some, ofTokens?, initial, hrun]
  rfl

/-- A plain document is read back from its compact text. -/
theorem read?_compact {d : Document} (h : d.Plain greatestDepth) : read? (compact d) = some d := by
  rw [read?, compact, String.toList_ofList]
  exact (lexed_compact h).ofChars? h

/-- A plain document is read back from its text with one item or member a line. -/
theorem read?_pretty {d : Document} (h : d.Plain greatestDepth) : read? (pretty d) = some d := by
  rw [read?, pretty, String.toList_ofList]
  exact (lexed_pretty h 0).ofChars? h

/-! ## What reading gives -/

/-- What was read of an open list or table. -/
def Frame.documents : Frame → List Document
  | .list read => read
  | .table read _ => read.map Prod.snd

/-- What was read of the open lists and tables leaves room for the brackets around it. -/
def Roomy : List Frame → Prop
  | [] => True
  | f :: outer =>
    (∀ d ∈ f.documents, d.Parsed (greatestDepth - (outer.length + 1))) ∧ Roomy outer

/-- The open lists and tables are roomy, and a document that was read as a whole is nested at most
as deeply as can be read. -/
def Machine.Roomy (m : Machine) : Prop :=
  Json.Roomy m.stack ∧ ∀ d, m.next = .nothing d → d.Parsed greatestDepth

section
variable {stack : List Frame} {d : Document} {m m' : Machine} {t : Token}

theorem roomy_deliver (h : Roomy stack) (hd : d.Parsed (greatestDepth - stack.length)) :
    (Machine.deliver d stack).Roomy := by
  match stack with
  | [] => exact ⟨trivial, fun _ heq => Expectation.nothing.inj heq ▸ hd⟩
  | .list _ :: _ | .table _ _ :: _ =>
    exact ⟨⟨List.forall_mem_cons.2 ⟨hd, h.1⟩, h.2⟩, fun _ heq => nomatch heq⟩

/-- What is closed beyond the greatest depth is unreadable, so it is not nested at all. -/
theorem parsed_close {f : Frame} {outer : List Frame}
    (h : ∀ d ∈ f.documents, d.Parsed (greatestDepth - (outer.length + 1))) :
    (close (outer.length + 1) f).Parsed (greatestDepth - outer.length) := by
  have hroom : outer.length + 1 ≤ greatestDepth →
      greatestDepth - outer.length = greatestDepth - (outer.length + 1) + 1 := by
    omega
  cases f with
  | list read =>
    rw [close]
    split
    · next hdepth =>
      rw [hroom hdepth]
      exact .list fun d hd => h d (List.mem_reverse.1 hd)
    · exact .unreadable
  | table read key =>
    rw [close]
    split
    · next members hmembers =>
      split
      · next hdepth =>
        rw [hroom hdepth]
        refine .table fun m hm => ?_
        obtain ⟨r, hr, hrm⟩ := exists_of_mem_mapM hmembers hm
        obtain ⟨k, -, rfl⟩ := Option.map_eq_some_iff.1 hrm
        exact h r.2 (List.mem_map_of_mem (List.mem_reverse.1 hr))
      · exact .unreadable
    · exact .unreadable

theorem roomy_shut? (h : Roomy stack) (hm : shut? stack = some m) : m.Roomy := by
  match stack with
  | f :: outer =>
    obtain rfl := Option.some.inj hm
    exact roomy_deliver h.2 (parsed_close h.1)

theorem roomy_value? (h : Roomy stack) (hm : value? stack t = some m) : m.Roomy := by
  unfold value? at hm
  split at hm <;> cases hm
  · exact roomy_deliver h .null
  · next b => exact roomy_deliver h (.bool b)
  · next n =>
    cases n with
    | none => exact roomy_deliver h .unreadable
    | some k => exact roomy_deliver h (.number k)
  · next s =>
    cases s with
    | none => exact roomy_deliver h .unreadable
    | some s => exact roomy_deliver h (.text s)
  · exact ⟨⟨List.forall_mem_nil _, h⟩, fun _ heq => nomatch heq⟩
  · exact ⟨⟨List.forall_mem_nil _, h⟩, fun _ heq => nomatch heq⟩

theorem roomy_key? (h : Roomy stack) (hm : key? stack t = some m) : m.Roomy := by
  unfold key? at hm
  split at hm <;> cases hm
  exact ⟨h, fun _ heq => nomatch heq⟩

/-- A token leaves room. -/
theorem roomy_step? (h : m.Roomy) (hm : step? m t = some m') : m'.Roomy := by
  obtain ⟨stack, next⟩ := m
  replace h : Json.Roomy stack := h.1
  have hopen : ∀ e : Expectation, (∀ d, e ≠ .nothing d) → Machine.Roomy ⟨stack, e⟩ := fun e he =>
    ⟨h, fun d heq => absurd heq (he d)⟩
  unfold step? at hm
  dsimp only at hm
  split at hm
  all_goals first
    | exact roomy_value? h hm
    | exact roomy_shut? h hm
    | exact roomy_key? h hm
    | exact Option.some.inj hm ▸ hopen _ fun _ heq => nomatch heq
    | cases hm

/-- What is read is nested at most as deeply as can be read. -/
theorem parsed_of_read? {s : String} (h : read? s = some d) : d.Parsed greatestDepth := by
  simp only [read?, ofChars?, ofTokens?, Option.bind_eq_bind, Option.bind_eq_some_iff] at h
  obtain ⟨ts, -, m, hrun, hresult⟩ := h
  have hroomy : ∀ (ts : List Token) (m m' : Machine), m.Roomy → ts.foldlM step? m = some m' →
      m'.Roomy := by
    intro ts
    induction ts with
    | nil => exact fun m m' hm hrun => Option.some.inj hrun ▸ hm
    | cons t ts ih =>
      intro m m' hm hrun
      obtain ⟨m₁, hstep, hrest⟩ := Option.bind_eq_some_iff.1 (List.foldlM_cons.symm.trans hrun)
      exact ih m₁ m' (roomy_step? hm hstep) hrest
  have hroom := hroomy ts initial m ⟨trivial, fun _ heq => nomatch heq⟩ hrun
  unfold result? at hresult
  split at hresult
  · next d' hnext => exact Option.some.inj hresult ▸ hroom.2 d' hnext
  · cases hresult

end

end Json

end EntityModel
