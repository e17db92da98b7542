import EntityModel.Proofs.OrderedMap
import Mathlib.Data.List.Induction

/-!
# Filing under keys

An error record is three maps, one in the other, around lists of messages, and a message is filed
by going down through them. `Filing.nest` is one such level: the parts of a key go to the store of
this key, which is made when the first of them is filed. `Filing.Faithful` says what a record needs
of its levels, that a new part is listed at one place and that a store is made again by filing what
it lists, and `Filing.Faithful.nest` carries it from the stores to the map, so that it is proved
once for all levels.
-/

namespace EntityModel

universe u v w

/-- The second list is the first with one element more, at some place. -/
def Inserted {α : Type u} (x : α) (l l' : List α) : Prop :=
  ∃ before after, l = before ++ after ∧ l' = before ++ x :: after

namespace Inserted

variable {α : Type u} {β : Type v} {x : α} {l l' : List α}

/-- An insertion is one between what stands before and behind the list, too. -/
theorem between (h : Inserted x l l') (before after : List α) :
    Inserted x (before ++ l ++ after) (before ++ l' ++ after) := by
  obtain ⟨b, a, rfl, rfl⟩ := h
  exact ⟨before ++ b, a ++ after, by simp, by simp⟩

theorem map (h : Inserted x l l') (f : α → β) : Inserted (f x) (l.map f) (l'.map f) := by
  obtain ⟨b, a, rfl, rfl⟩ := h
  exact ⟨b.map f, a.map f, by simp, by simp⟩

/-- The only element of a list is inserted into the empty one. -/
theorem eq_singleton (h : Inserted x [] l') : l' = [x] := by
  obtain ⟨b, a, hba, rfl⟩ := h
  obtain ⟨rfl, rfl⟩ := List.append_eq_nil_iff.1 hba.symm
  rfl

end Inserted

/-- A way to file parts into a store that lists them. -/
structure Filing (σ : Type u) (π : Type v) where
  /-- The store that the first part is filed into. -/
  start : σ
  /-- The store with one part more. -/
  file : σ → π → σ
  /-- What is filed in a store. -/
  parts : σ → List π

namespace Filing

variable {σ : Type u} {π : Type v} {κ : Type w} [DecidableEq κ]

/-- Files parts under keys, each in the store of its key. -/
def nest (F : Filing σ π) : Filing (OrderedMap κ σ) (κ × π) where
  start := .empty
  file m p := m.upsert p.1 fun s => F.file (s.getD F.start) p.2
  parts m := m.entries.flatMap fun e => (F.parts e.2).map fun p => (e.1, p)

/-- The stores that filing makes hold a part, and list their parts so that a new one is inserted
and that filing them again makes the store again. -/
structure Faithful (F : Filing σ π) (Made : σ → Prop) : Prop where
  parts_start : F.parts F.start = []
  made_first : ∀ p, Made (F.file F.start p)
  made_next : ∀ s p, Made s → Made (F.file s p)
  ne_nil : ∀ s, Made s → F.parts s ≠ []
  inserted : ∀ s p, p ∉ F.parts s → Inserted p (F.parts s) (F.parts (F.file s p))
  replayed : ∀ s, Made s → (F.parts s).foldl F.file F.start = s

/-- The maps that filing under keys makes: there is a key, and filing has made the store of each. -/
def MadeUnder (Made : σ → Prop) (m : OrderedMap κ σ) : Prop :=
  m.entries ≠ [] ∧ ∀ e ∈ m.entries, Made e.2

/-- The parts of one key are filed in its store, one after the other. -/
theorem foldl_nest_key (F : Filing σ π) (k : κ) (p : π) (ps : List π) (m : OrderedMap κ σ) :
    ((p :: ps).map fun q => (k, q)).foldl F.nest.file m =
      m.upsert k fun s => (p :: ps).foldl F.file (s.getD F.start) := by
  induction ps generalizing p m with
  | nil => rfl
  | cons q ps ih =>
    rw [List.map_cons, List.foldl_cons, ih]
    show (m.upsert k _).upsert k _ = m.upsert k _
    rw [OrderedMap.upsert_upsert]
    rfl

namespace Faithful

variable {F : Filing σ π} {Made : σ → Prop}

/-- Filing the parts of stores under new keys makes their entries again. -/
theorem foldl_nest_entries (hF : F.Faithful Made) {es : List (κ × σ)} {m : OrderedMap κ σ}
    (hes : ∀ e ∈ es, Made e.2) (hkeys : ((m.entries ++ es).map Prod.fst).Nodup) :
    ((es.flatMap fun e => (F.parts e.2).map fun p => (e.1, p)).foldl F.nest.file m).entries =
      m.entries ++ es := by
  induction es generalizing m with
  | nil => simp
  | cons e es ih =>
    obtain ⟨k, s⟩ := e
    have hs : Made s := hes (k, s) List.mem_cons_self
    obtain ⟨p, ps, hps⟩ := List.exists_cons_of_ne_nil (hF.ne_nil s hs)
    have hnew : k ∉ m.entries.map Prod.fst := by
      intro hk
      rw [List.map_append, List.nodup_append] at hkeys
      exact hkeys.2.2 k hk k (by simp) rfl
    have hentries : (m.upsert k fun s => (p :: ps).foldl F.file (s.getD F.start)).entries =
        m.entries ++ [(k, s)] := by
      refine (OrderedMap.upsertIn_eq_append hnew _).trans ?_
      rw [Option.getD_none, ← hps, hF.replayed s hs]
    rw [List.flatMap_cons, List.foldl_append, hps, foldl_nest_key, ih, hentries]
    · simp
    · exact fun e he => hes e (List.mem_cons_of_mem _ he)
    · rw [hentries]
      simpa using hkeys

/-- A first part under a key is filed in a new store. -/
theorem parts_file_start (hF : F.Faithful Made) (p : π) :
    F.parts (F.file F.start p) = [p] := by
  have hnew : p ∉ F.parts F.start := by
    rw [hF.parts_start]
    exact List.not_mem_nil
  have hinserted := hF.inserted _ _ hnew
  rw [hF.parts_start] at hinserted
  exact hinserted.eq_singleton

/-- A new part under a key is inserted among the parts of the map. -/
theorem inserted_nest (hF : F.Faithful Made) (m : OrderedMap κ σ) (p : κ × π)
    (hp : p ∉ F.nest.parts m) : Inserted p (F.nest.parts m) (F.nest.parts (F.nest.file m p)) := by
  obtain ⟨k, p⟩ := p
  obtain ⟨before, s, after, hes, hfile⟩ | hfile :=
    m.entries_upsert k fun s => F.file (s.getD F.start) p
  · have hs : p ∉ F.parts s := by
      intro hs
      exact hp (List.mem_flatMap.2 ⟨(k, s), by simp [hes], List.mem_map_of_mem hs⟩)
    have hinserted := ((hF.inserted s p hs).map fun p => (k, p)).between
      (before.flatMap fun e => (F.parts e.2).map fun p => (e.1, p))
      (after.flatMap fun e => (F.parts e.2).map fun p => (e.1, p))
    simpa [nest, hes, hfile] using hinserted
  · refine ⟨F.nest.parts m, [], (List.append_nil _).symm, ?_⟩
    simp [nest, hfile, hF.parts_file_start]

/-- What filing needs of the stores holds of the map of the stores. -/
theorem nest (hF : F.Faithful Made) :
    (F.nest : Filing (OrderedMap κ σ) (κ × π)).Faithful (MadeUnder Made) where
  parts_start := rfl
  made_first p := ⟨List.cons_ne_nil _ _, by
    intro e he
    obtain rfl := List.mem_singleton.1 he
    exact hF.made_first p.2⟩
  made_next m p hm := by
    refine ⟨m.entries_upsert_ne_nil p.1 _, ?_⟩
    rintro ⟨k, s⟩ hs
    have hfind := (OrderedMap.mem_entries _).1 hs
    rw [Filing.nest, OrderedMap.find?_upsert] at hfind
    split at hfind
    · next hk =>
      obtain rfl := Option.some.inj hfind
      cases hold : m.find? p.1 with
      | none => exact hF.made_first p.2
      | some s => exact hF.made_next s p.2 (hm.2 (p.1, s) (m.mem_entries.2 hold))
    · exact hm.2 (k, s) (m.mem_entries.2 hfind)
  ne_nil m hm hparts := by
    obtain ⟨e, es, hes⟩ := List.exists_cons_of_ne_nil hm.1
    have hnone := List.flatMap_eq_nil_iff.1 hparts e (by simp [hes])
    exact hF.ne_nil e.2 (hm.2 e (by simp [hes])) (List.map_eq_nil_iff.1 hnone)
  inserted := hF.inserted_nest
  replayed m hm := OrderedMap.ext_entries (hF.foldl_nest_entries hm.2 m.nodup_keys)

/-- Filing makes a store as soon as there is a part. -/
theorem start_or_made (hF : F.Faithful Made) (ps : List π) :
    ps.foldl F.file F.start = F.start ∨ Made (ps.foldl F.file F.start) := by
  induction ps using List.reverseRecOn with
  | nil => exact .inl rfl
  | append_singleton ps p ih =>
    right
    rw [List.foldl_append, List.foldl_cons, List.foldl_nil]
    rcases ih with hstart | hmade
    · rw [hstart]
      exact hF.made_first p
    · exact hF.made_next _ p hmade

/-- Filing what a store lists makes it again, if it was made by filing. -/
theorem replayed_foldl (hF : F.Faithful Made) (ps : List π) :
    (F.parts (ps.foldl F.file F.start)).foldl F.file F.start = ps.foldl F.file F.start := by
  rcases hF.start_or_made ps with hstart | hmade
  · rw [hstart, hF.parts_start, List.foldl_nil]
  · exact hF.replayed _ hmade

end Faithful

end Filing

end EntityModel
