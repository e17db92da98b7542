import EntityModel.Proofs.Validator.Defects
import EntityModel.Proofs.Validator.NormalForm
import EntityModel.Proofs.Validator.Targets

/-!
# Normalizing an attribute again

Defaults are filled in without being judged: a type that is missing becomes the default type even
if this one is not registered, and a flag gets its default even if this one is of another kind. The
attribute stays as it is when it is normalized again (`ValidationTables.complete_complete`), but now
its defaults are given and judged, so that those which do not fit are filed
(`ValidationTables.DefaultDefect`). Nothing is filed for any attribute exactly if all defaults of
the tables fit (`defaulting_idempotent_iff`).
-/

namespace EntityModel

namespace ValidationTables

variable {t : ValidationTables} {c : AttributeConfig} {msg : String}

/-! ## Completed attributes -/

/-- An attribute lacks no default: it has a type and all flags of the table. -/
structure IsComplete (t : ValidationTables) (c : AttributeConfig) : Prop where
  type : ∃ v, c.type = some v
  flags : ∀ flag ∈ t.flags.keys, flag ∈ c.flags.keys

/-- Defaults make an attribute complete. -/
theorem isComplete_complete (t : ValidationTables) (c : AttributeConfig) :
    t.IsComplete (t.complete c) where
  type := ⟨_, rfl⟩
  flags flag hflag := by
    obtain ⟨f, hf⟩ := t.flags.exists_find?_of_mem hflag
    rw [OrderedMap.keys, (t.completed_complete c).flags, List.map_append, List.mem_append]
    by_cases hgiven : flag ∈ c.flags.keys
    · exact .inl hgiven
    · refine .inr (List.mem_map.2 ⟨(flag, f.value), List.mem_map.2 ⟨(flag, f), ?_, rfl⟩, rfl⟩)
      exact List.mem_filter.2 ⟨t.flags.mem_entries.2 hf, by simpa using hgiven⟩

/-- An attribute that lacks no default stays as it is. -/
theorem IsComplete.complete_eq (h : t.IsComplete c) : t.complete c = c := by
  obtain ⟨v, hv⟩ := h.type
  have hflags : t.flags.entries.foldl (fun flags f => addFlag flags f.1 f.2.value) c.flags =
      c.flags := by
    refine OrderedMap.ext_entries ((entries_foldl_addFlag t.flags.nodup_keys c.flags).trans ?_)
    have hnone : (t.flags.entries.filter fun f => f.1 ∉ c.flags.keys) = [] := by
      rw [List.filter_eq_nil_iff]
      intro f hf
      simpa using h.flags f.1 (List.mem_map_of_mem hf)
    rw [hnone, List.map_nil, List.append_nil]
  rw [complete, hflags, hv, Option.getD_some, ← hv]

/-- Defaults are filled in once. -/
theorem complete_complete (t : ValidationTables) (c : AttributeConfig) :
    t.complete (t.complete c) = t.complete c :=
  (t.isComplete_complete c).complete_eq

/-- A flag that is set if it is not given. -/
theorem find?_addFlag (flags : OrderedMap String Value) (flag flag' : String) (v : Value) :
    (addFlag flags flag v).find? flag' =
      (flags.find? flag').or (if flag = flag' then some v else none) := by
  by_cases hgiven : flag ∈ flags.keys
  · obtain ⟨v', hv'⟩ := flags.exists_find?_of_mem hgiven
    by_cases h : flag = flag'
    · subst h
      simp [addFlag, hgiven, hv']
    · simp [addFlag, hgiven, h]
  · have hnone := flags.find?_eq_none.2 hgiven
    by_cases h : flag = flag'
    · subst h
      simp [addFlag, hgiven, hnone]
    · simp [addFlag, hgiven, h]

/-- A flag is what is given, or else its default. -/
theorem find?_flags_complete (t : ValidationTables) (c : AttributeConfig) (flag : String) :
    (t.complete c).flags.find? flag =
      (c.flags.find? flag).or ((t.flags.find? flag).map FlagDefault.value) := by
  suffices h : ∀ (fs : List (String × FlagDefault)) (flags : OrderedMap String Value),
      (fs.foldl (fun flags f => addFlag flags f.1 f.2.value) flags).find? flag =
        (flags.find? flag).or ((OrderedMap.lookupIn flag fs).map FlagDefault.value) from
    h t.flags.entries c.flags
  intro fs
  induction fs with
  | nil => intro flags; simp [OrderedMap.lookupIn]
  | cons f fs ih =>
    intro flags
    rw [List.foldl_cons, ih, find?_addFlag, Option.or_assoc, OrderedMap.lookupIn]
    by_cases h : f.1 = flag <;> simp [h]

/-! ## Defaults that do not fit -/

/-- Something that is wrong with a default which an attribute lacks, and its message. -/
inductive DefaultDefect (t : ValidationTables) (c : AttributeConfig) : String → Prop
  | type : c.type = none → defaultAttributeType ∉ t.types.keys →
      DefaultDefect t c ("The given type '" ++ defaultAttributeType ++ "' is not valid")
  | flag {flag : String} {f : FlagDefault} : t.flags.find? flag = some f →
      c.flags.find? flag = none → f.kind.admits f.value = false →
      DefaultDefect t c
        ("The config element '" ++ flag ++ "' must be of type '" ++ f.kind.name ++ "'")

/-- The message about a flag tells the flag and its kind. -/
theorem flagMessage_inj {flag flag' : String} {k k' : FlagKind}
    (h : "The config element '" ++ flag ++ "' must be of type '" ++ k.name ++ "'" =
      "The config element '" ++ flag' ++ "' must be of type '" ++ k'.name ++ "'") :
    flag = flag' ∧ k = k' := by
  have hchars := congrArg String.toList h
  simp only [String.toList_append, List.append_assoc, List.append_cancel_left_eq] at hchars
  -- Read backwards, the messages begin with the kinds, whose last letters differ.
  have hreversed := congrArg List.reverse hchars
  cases k <;> cases k' <;> simp [FlagKind.name] at hreversed ⊢
  all_goals exact String.toList_injective hreversed

/-- A message about a type is no message about a flag. -/
theorem typeMessage_ne (type flag kind : String) :
    "The given type '" ++ type ++ "' is not valid" ≠
      "The config element '" ++ flag ++ "' must be of type '" ++ kind ++ "'" := by
  intro h
  have hchars := congrArg String.toList h
  simp [String.toList_append] at hchars

/-- What is wrong with a completed attribute was wrong before, or is wrong with its defaults. -/
theorem mem_attributeErrors_complete :
    msg ∈ t.attributeErrors (t.complete c) ↔ msg ∈ t.attributeErrors c ∨ t.DefaultDefect c msg := by
  simp only [mem_attributeErrors, mem_typeErrors, mem_flagErrors, find?_flags_complete]
  constructor
  · rintro (⟨v, hv, hwrong, rfl⟩ | ⟨flag, f, hf, v, hv, hkind, rfl⟩)
    · cases hc : c.type with
      | some v' =>
        obtain rfl : v' = v := by simpa [complete, hc] using hv
        exact .inl (.inl ⟨v', rfl, hwrong, rfl⟩)
      | none =>
        obtain rfl : .text defaultAttributeType = v := by simpa [complete, hc] using hv
        exact .inr (.type hc fun hmem => hwrong _ hmem rfl)
    · cases hc : c.flags.find? flag with
      | some v' =>
        obtain rfl : v' = v := by simpa [hc] using hv
        exact .inl (.inr ⟨flag, f, hf, v', hc, hkind, rfl⟩)
      | none =>
        obtain rfl : f.value = v := by simpa [hc, hf] using hv
        exact .inr (.flag hf hc hkind)
  · rintro ((⟨v, hv, hwrong, rfl⟩ | ⟨flag, f, hf, v, hv, hkind, rfl⟩) | hdefect)
    · exact .inl ⟨v, by simp [complete, hv], hwrong, rfl⟩
    · exact .inr ⟨flag, f, hf, v, by simp [hv], hkind, rfl⟩
    · cases hdefect with
      | type hc hunknown =>
        refine .inl ⟨.text defaultAttributeType, by simp [complete, hc], ?_, rfl⟩
        rintro s hs hname
        exact hunknown (Value.text.inj hname ▸ hs)
      | @flag flag f hf hc hkind => exact .inr ⟨flag, f, hf, f.value, by simp [hc, hf], hkind, rfl⟩

/-- What is wrong with a default is not said about what is given. -/
theorem DefaultDefect.notMem (h : t.DefaultDefect c msg) : msg ∉ t.attributeErrors c := by
  simp only [mem_attributeErrors, mem_typeErrors, mem_flagErrors]
  cases h with
  | type hc _ =>
    rintro (⟨v, hv, -⟩ | ⟨flag, f, -, v, -, -, hmessage⟩)
    · cases hc.symm.trans hv
    · exact typeMessage_ne _ _ _ hmessage
  | flag _ hc _ =>
    rintro (⟨v, -, -, hmessage⟩ | ⟨flag', f', -, v, hv, -, hmessage⟩)
    · exact typeMessage_ne _ _ _ hmessage.symm
    · obtain ⟨rfl, -⟩ := flagMessage_inj hmessage
      cases hc.symm.trans hv

/-- All defaults of the tables fit: the default type is registered, and the default of each flag is
of its kind. -/
def DefaultsFit (t : ValidationTables) : Prop :=
  defaultAttributeType ∈ t.types.keys ∧ ∀ f ∈ t.flags.values, f.kind.admits f.value = true

instance (t : ValidationTables) : Decidable t.DefaultsFit :=
  inferInstanceAs (Decidable (_ ∧ _))

/-- Defaults that fit have no defects, whichever an attribute lacks. -/
theorem defaultsFit_iff : t.DefaultsFit ↔ ∀ c msg, ¬ t.DefaultDefect c msg := by
  constructor
  · rintro ⟨htype, hflags⟩ c msg hdefect
    cases hdefect with
    | type _ hunknown => exact hunknown htype
    | @flag flag f hf _ hkind =>
      have hvalue : f ∈ t.flags.values := List.mem_map.2 ⟨(flag, f), t.flags.mem_entries.2 hf, rfl⟩
      rw [hflags f hvalue] at hkind
      cases hkind
  · intro hnone
    refine ⟨?_, fun f hf => ?_⟩
    · by_contra hunknown
      exact hnone .empty _ (.type rfl hunknown)
    · obtain ⟨⟨flag, _⟩, hentry, rfl⟩ := List.mem_map.1 hf
      by_contra hkind
      exact hnone .empty _ (.flag (t.flags.mem_entries.1 hentry) rfl (by simpa using hkind))

end ValidationTables

/-! ## Main statement -/

namespace Validator

/-- Filing messages about an attribute changes nothing exactly if all are filed. -/
theorem fileAttribute_eq_self {v : Validator} {entity name : String} {ms : List String} :
    v.fileAttribute entity name ms = v ↔ ∀ msg ∈ ms,
      ⟨ErrorRecord.fileName (some entity), .attributeItem, name, msg⟩ ∈ v.errors.rows := by
  constructor
  · intro h msg hmsg
    rw [← h, errors_fileAttribute, ErrorRecord.mem_rows_addAll]
    exact .inl (List.mem_map_of_mem hmsg)
  · intro h
    have herrors : (v.fileAttribute entity name ms).errors = v.errors := by
      rw [errors_fileAttribute]
      refine ErrorRecord.addAll_of_subset fun row hrow => ?_
      obtain ⟨msg, hmsg, rfl⟩ := List.mem_map.1 hrow
      exact h msg hmsg
    exact congrArg v.withErrors herrors

/-- An attribute that was normalized is normalized again: it and the validator stay as they are. -/
def NormalizesOnce (v : Validator) (entity name : String) (c : AttributeConfig) : Prop :=
  let once := v.normalizeAttribute entity name c
  once.2.normalizeAttribute entity name once.1 = once

/-- Normalizing again changes nothing exactly if all that is wrong with the defaults was filed
before. -/
theorem normalizesOnce_iff (v : Validator) (entity name : String) (c : AttributeConfig) :
    v.NormalizesOnce entity name c ↔ ∀ msg, v.tables.DefaultDefect c msg →
      ⟨ErrorRecord.fileName (some entity), .attributeItem, name, msg⟩ ∈ v.errors.rows := by
  have hagain : v.NormalizesOnce entity name c ↔
      (v.normalizeAttribute entity name c).2.fileAttribute entity name
        (v.tables.attributeErrors (v.tables.complete c)) =
          (v.normalizeAttribute entity name c).2 := by
    show (v.tables.complete (v.tables.complete c), _) = (v.tables.complete c, _) ↔ _
    rw [ValidationTables.complete_complete, Prod.mk.injEq, eq_self, true_and]
    rfl
  have hfiled : ∀ msg,
      ⟨ErrorRecord.fileName (some entity), .attributeItem, name, msg⟩ ∈
        (v.normalizeAttribute entity name c).2.errors.rows ↔
      msg ∈ v.tables.attributeErrors c ∨
        ⟨ErrorRecord.fileName (some entity), .attributeItem, name, msg⟩ ∈ v.errors.rows := by
    intro msg
    rw [normalizeAttribute, errors_fileAttribute, ErrorRecord.mem_rows_addAll]
    simp
  rw [hagain, fileAttribute_eq_self]
  constructor
  · intro h msg hdefect
    have hmsg := ValidationTables.mem_attributeErrors_complete.2 (.inr hdefect)
    exact ((hfiled msg).1 (h msg hmsg)).resolve_left hdefect.notMem
  · intro h msg hmsg
    rw [hfiled]
    exact (ValidationTables.mem_attributeErrors_complete.1 hmsg).imp_right (h msg)

end Validator

/-- An attribute that was normalized is the same when it is normalized again. Messages are filed
only about the defaults that it took: none exactly if those that do not fit were filed before. So
normalizing again changes nothing, whatever the validator has seen, exactly if all defaults of the
tables fit. -/
theorem defaulting_idempotent_iff (t : ValidationTables) :
    (∀ v : Validator, v.tables = t → ∀ entity name c,
      let once := v.normalizeAttribute entity name c
      (once.2.normalizeAttribute entity name once.1).1 = once.1 ∧
      (v.NormalizesOnce entity name c ↔ ∀ msg, t.DefaultDefect c msg →
        ⟨ErrorRecord.fileName (some entity), .attributeItem, name, msg⟩ ∈ v.errors.rows)) ∧
    ((∀ v : Validator, v.tables = t → ∀ entity name c, v.NormalizesOnce entity name c) ↔
      t.DefaultsFit) := by
  refine ⟨?_, ?_⟩
  · rintro v rfl entity name c
    exact ⟨v.tables.complete_complete c, v.normalizesOnce_iff entity name c⟩
  · rw [ValidationTables.defaultsFit_iff]
    constructor
    · intro h c msg hdefect
      have hfresh := (Validator.normalizesOnce_iff _ "" "" c).1 (h (.ofTables t) rfl "" "" c)
      exact List.not_mem_nil (hfresh msg hdefect)
    · rintro h v rfl entity name c
      exact (v.normalizesOnce_iff entity name c).2 fun msg hdefect => absurd hdefect (h c msg)

example : ValidationTables.builtIn.DefaultsFit := by decide

/-- The default of a flag is a text where a truth value is meant. The first normalization fills it
in and files nothing, the second one files a message about it. -/
theorem default_filed_again_of_text :
    let nullable : FlagDefault := ⟨.boolean, .text "yes", ""⟩
    let t := { ValidationTables.builtIn with flags := .ofList [("nullable", nullable)] }
    let v := Validator.ofTables t
    let once := v.normalizeAttribute "user" "email" (.ofType (.text "string"))
    let again := once.2.normalizeAttribute "user" "email" once.1
    ¬ v.NormalizesOnce "user" "email" (.ofType (.text "string")) ∧
      once.1 = (AttributeConfig.ofType (.text "string")).withFlag "nullable" (.text "yes") ∧
      once.2.isValid = true ∧ again.1 = once.1 ∧
      again.2.errors.rows = [⟨"user", .attributeItem, "email",
        "The config element 'nullable' must be of type 'boolean'"⟩] := by
  intro nullable t v once again
  obtain ⟨hpointwise, -⟩ := defaulting_idempotent_iff t
  obtain ⟨hsame, honce⟩ := hpointwise v rfl "user" "email" (.ofType (.text "string"))
  refine ⟨fun h => ?_, rfl, rfl, hsame, by decide⟩
  have hdefect := @ValidationTables.DefaultDefect.flag t (.ofType (.text "string")) "nullable"
    nullable rfl rfl rfl
  exact List.not_mem_nil (honce.1 h _ hdefect)

end EntityModel
