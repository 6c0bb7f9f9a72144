import Netflow.Modes
import Netflow.Provenance
import Netflow.RawFields

/-!
# Names of fields

A field of a template has the name that the registry or a vendor table has for its element, or one that spells out
its numbers, and the scope fields of v9 options have names of their own. The values that no column holds are kept
under the name alone. It tells the element, whatever templates and vendors are involved; only the scope types
without a name share one.
-/

namespace Netflow

open LateBinding (Run)

section Definitions

/-- What a field holds: an element, of IANA if the enterprise number is 0, or a scope of v9 options. -/
inductive FieldOrigin
  | element (enterpriseNumber : UInt32) (ieId : UInt16)
  | scope (ty : UInt16)
  deriving DecidableEq, Repr

/-- The specifier of a field of some length. -/
def FieldOrigin.spec (length : UInt16) : FieldOrigin → FieldSpec
  | element enterpriseNumber ieId => fieldSpec enterpriseNumber ieId length
  | scope ty => ⟨ty, V9.scopePen, length, s!"scope_{V9.scopeName ty}", .octetArray⟩

/-- Whether the scope type is one without a name. -/
def FieldOrigin.IsOther : FieldOrigin → Prop
  | element _ _ => False
  | scope ty => V9.scopeName ty = "other"

/-- All elements that a table has a name for, with the enterprise number they belong to. -/
def namedElements : List (UInt32 × IeDef) :=
  Iana.registry.map (0, ·) ++ Enterprise.vmware.map (Enterprise.penVmware, ·) ++
    Enterprise.nokia.map (Enterprise.penNokia, ·)

end Definitions

section Texts

/-- A number is told by its decimal digits. -/
theorem toDigits_ten_inj {n m : ℕ} (h : Nat.toDigits 10 n = Nat.toDigits 10 m) : n = m := by
  rw [← @Nat.ofDigitChars_ten_toDigits n, h, Nat.ofDigitChars_ten_toDigits]

/-- A character that is no digit is not in a number. -/
theorem notMem_toDigits {c : Char} (hc : ¬ c.isDigit) (n : ℕ) : c ∉ Nat.toDigits 10 n :=
  fun h => hc (Nat.isDigit_of_mem_toDigits (by decide) (by decide) h)

/-- An element without a name is spelled out. -/
theorem fieldSpec_name_of_none {enterpriseNumber : UInt32} {ieId : UInt16}
    (h : resolve enterpriseNumber ieId = none) (length : UInt16) :
    (fieldSpec enterpriseNumber ieId length).name.toList =
      if enterpriseNumber = 0 then 'i' :: 'd' :: Nat.toDigits 10 ieId.toNat
      else 'e' :: (Nat.toDigits 10 enterpriseNumber.toNat ++ 'i' :: 'd' :: Nat.toDigits 10 ieId.toNat) := by
  rw [fieldSpec, h]
  dsimp only
  split
  · change ("id" ++ ieId.toNat.repr).toList = _
    rw [String.toList_append, Nat.toList_repr]
    rfl
  · change ("e" ++ enterpriseNumber.toNat.repr ++ "id" ++ ieId.toNat.repr).toList = _
    simp [String.toList_append, Nat.toList_repr]

/-- An element with a name is in one of the tables. -/
theorem mem_namedElements {enterpriseNumber : UInt32} {ieId : UInt16} {d : IeDef}
    (h : resolve enterpriseNumber ieId = some d) : (enterpriseNumber, d) ∈ namedElements ∧ d.id = ieId := by
  have hfound : ∀ {table : List IeDef}, table.find? (·.id = ieId) = some d → d ∈ table ∧ d.id = ieId :=
    fun hfind => ⟨List.mem_of_find?_eq_some hfind, by simpa using List.find?_some hfind⟩
  simp only [namedElements, List.mem_append, List.mem_map, Prod.mk.injEq]
  unfold resolve at h
  split at h
  · rename_i hzero
    obtain ⟨hmem, hid⟩ := hfound h
    exact ⟨.inl (.inl ⟨d, hmem, hzero.symm, rfl⟩), hid⟩
  · unfold Enterprise.lookup at h
    split at h
    · rename_i hvmware
      obtain ⟨hmem, hid⟩ := hfound h
      exact ⟨.inl (.inr ⟨d, hmem, hvmware.symm, rfl⟩), hid⟩
    · split at h
      · rename_i hnokia
        obtain ⟨hmem, hid⟩ := hfound h
        exact ⟨.inr ⟨d, hmem, hnokia.symm, rfl⟩, hid⟩
      · contradiction

/-- Whether a text could be one that spells out an element, or the name of a scope or of a value of sFlow. -/
def looksGenerated : List Char → Bool
  | 'i' :: 'd' :: _ => true
  | 'e' :: c :: _ => c.isDigit
  | 's' :: 'c' :: 'o' :: 'p' :: 'e' :: '_' :: _ => true
  | 's' :: 'f' :: 'l' :: 'o' :: 'w' :: '.' :: _ => true
  | _ => false

/-- No name of a table looks like a generated one. -/
theorem not_looksGenerated_of_mem {p : UInt32 × IeDef} (h : p ∈ namedElements) : ¬ looksGenerated p.2.name.toList := by
  have hall : ∀ p ∈ namedElements, ¬ looksGenerated p.2.name.toList := by decide +kernel
  exact hall p h

/-- No two names of the tables are the same. -/
theorem namedElements_nodup : (namedElements.map fun p => p.2.name).Nodup := by decide +kernel

/-- What an element without a name is called looks generated. -/
theorem looksGenerated_of_none {enterpriseNumber : UInt32} {ieId : UInt16} (h : resolve enterpriseNumber ieId = none)
    (length : UInt16) : looksGenerated (fieldSpec enterpriseNumber ieId length).name.toList := by
  rw [fieldSpec_name_of_none h]
  split
  · rfl
  · obtain ⟨c, digits, hdigits⟩ := List.exists_cons_of_ne_nil (@Nat.toDigits_ne_nil enterpriseNumber.toNat 10)
    have hdigit : c.isDigit :=
      Nat.isDigit_of_mem_toDigits (by decide) (by decide) (hdigits ▸ List.mem_cons_self)
    rw [hdigits]
    exact hdigit

/-- The name of a scope looks generated. -/
theorem looksGenerated_scope (ty length : UInt16) :
    looksGenerated ((FieldOrigin.scope ty).spec length).name.toList := by
  simp only [FieldOrigin.spec, V9.scopeName]
  split_ifs <;> decide

/-- An element that a table names has its name and type from there. -/
theorem fieldSpec_of_some {enterpriseNumber : UInt32} {ieId : UInt16} {d : IeDef}
    (h : resolve enterpriseNumber ieId = some d) (length : UInt16) :
    fieldSpec enterpriseNumber ieId length = ⟨ieId, enterpriseNumber, length, d.name, d.ty⟩ := by
  rw [fieldSpec, h]

end Texts

section Names

variable {enterpriseNumber enterpriseNumber' : UInt32} {ieId ieId' : UInt16}

/-- The name of an element tells it from all others. -/
theorem fieldSpec_name_inj {length length' : UInt16}
    (h : (fieldSpec enterpriseNumber ieId length).name = (fieldSpec enterpriseNumber' ieId' length').name) :
    enterpriseNumber = enterpriseNumber' ∧ ieId = ieId' := by
  cases hresolve : resolve enterpriseNumber ieId with
  | some d =>
    obtain ⟨hmem, hid⟩ := mem_namedElements hresolve
    rw [fieldSpec_of_some hresolve] at h
    cases hresolve' : resolve enterpriseNumber' ieId' with
    | some d' =>
      obtain ⟨hmem', hid'⟩ := mem_namedElements hresolve'
      rw [fieldSpec_of_some hresolve'] at h
      have heq := List.inj_on_of_nodup_map namedElements_nodup hmem hmem' h
      rw [Prod.mk.injEq] at heq
      exact ⟨heq.1, by rw [← hid, ← hid', heq.2]⟩
    | none =>
      have hgenerated := looksGenerated_of_none hresolve' length'
      rw [← h] at hgenerated
      exact absurd hgenerated (not_looksGenerated_of_mem hmem)
  | none =>
    cases hresolve' : resolve enterpriseNumber' ieId' with
    | some d' =>
      have hgenerated := looksGenerated_of_none hresolve length
      rw [h, fieldSpec_of_some hresolve'] at hgenerated
      exact absurd hgenerated (not_looksGenerated_of_mem (mem_namedElements hresolve').1)
    | none =>
      have hlists := congrArg String.toList h
      rw [fieldSpec_name_of_none hresolve, fieldSpec_name_of_none hresolve'] at hlists
      split at hlists
      · rename_i hzero
        split at hlists
        · rename_i hzero'
          simp only [List.cons.injEq, true_and] at hlists
          exact ⟨hzero.trans hzero'.symm, UInt16.toNat_inj.mp (toDigits_ten_inj hlists)⟩
        · simp at hlists
      · split at hlists
        · simp at hlists
        · have hnotMem : ∀ n, 'i' ∉ 'd' :: Nat.toDigits 10 n := fun n hmem =>
            (List.mem_cons.mp hmem).elim (by decide) (notMem_toDigits (by decide) n)
          rw [List.cons_inj_right, List.append_cons_inj_of_notMem (notMem_toDigits (by decide) _) (hnotMem _)]
            at hlists
          obtain ⟨hnumber, -, hid⟩ := hlists
          exact ⟨UInt32.toNat_inj.mp (toDigits_ten_inj hnumber),
            UInt16.toNat_inj.mp (toDigits_ten_inj (List.cons_inj_right _ |>.mp hid))⟩

/-- The name of an element does not depend on the length of the field. -/
theorem fieldSpec_name_length (enterpriseNumber : UInt32) (ieId length length' : UInt16) :
    (fieldSpec enterpriseNumber ieId length).name = (fieldSpec enterpriseNumber ieId length').name := by
  unfold fieldSpec
  split <;> rfl

/-- The name of a scope type tells it from all others, if it has one. -/
theorem V9.scopeName_inj {ty ty' : UInt16} (h : scopeName ty = scopeName ty') :
    ty = ty' ∨ scopeName ty = "other" ∧ scopeName ty' = "other" := by
  unfold scopeName at h ⊢
  split_ifs at h ⊢ <;> simp_all

/-- The name of a field tells what it holds, whatever its length; only scope types without a name share theirs. -/
theorem FieldOrigin.name_eq_iff (o o' : FieldOrigin) (length length' : UInt16) :
    (o.spec length).name = (o'.spec length').name ↔ o = o' ∨ o.IsOther ∧ o'.IsOther := by
  have hscope : ∀ {length length'} ty enterpriseNumber ieId, ((scope ty).spec length).name ≠
      ((element enterpriseNumber ieId).spec length').name := by
    intro length length' ty enterpriseNumber ieId h
    have hgenerated := looksGenerated_scope ty length
    rw [h] at hgenerated
    cases hresolve : resolve enterpriseNumber ieId with
    | some d =>
      rw [spec, fieldSpec_of_some hresolve] at hgenerated
      exact not_looksGenerated_of_mem (mem_namedElements hresolve).1 hgenerated
    | none =>
      have hlists := congrArg String.toList h
      rw [spec, spec, fieldSpec_name_of_none hresolve] at hlists
      have hfirst : (s!"scope_{V9.scopeName ty}").toList.head? = some 's' := by
        rw [V9.scopeName]
        split_ifs <;> decide
      change (s!"scope_{V9.scopeName ty}").toList = _ at hlists
      rw [hlists] at hfirst
      split at hfirst
      · simp at hfirst
      · simp at hfirst
  cases o with
  | element enterpriseNumber ieId =>
    cases o' with
    | element enterpriseNumber' ieId' =>
      simp only [spec, IsOther, false_and, or_false, element.injEq]
      constructor
      · exact fieldSpec_name_inj
      · rintro ⟨rfl, rfl⟩
        exact fieldSpec_name_length ..
    | scope ty =>
      simp only [IsOther, false_and, or_false, reduceCtorEq, iff_false]
      exact fun h => hscope ty enterpriseNumber ieId h.symm
  | scope ty =>
    cases o' with
    | element enterpriseNumber ieId =>
      simp only [IsOther, and_false, or_false, reduceCtorEq, iff_false]
      exact hscope ty enterpriseNumber ieId
    | scope other =>
      simp only [IsOther, scope.injEq]
      change s!"scope_{V9.scopeName ty}" = s!"scope_{V9.scopeName other}" ↔ _
      constructor
      · intro h
        exact V9.scopeName_inj ((String.append_right_inj _).mp h)
      · rintro (rfl | ⟨hother, hother'⟩)
        · rfl
        · rw [hother, hother']

end Names

section Templates

variable {c c' : Cursor} {f : FieldSpec}

/-- Whether a field holds an element or a scope. -/
def FieldSpec.HasOrigin (f : FieldSpec) : Prop := ∃ o : FieldOrigin, f = o.spec f.length

/-- The specifier of an element has the length given. -/
theorem FieldSpec.hasOrigin_fieldSpec (enterpriseNumber : UInt32) (ieId length : UInt16) :
    (fieldSpec enterpriseNumber ieId length).HasOrigin :=
  ⟨.element enterpriseNumber ieId, by rw [fieldSpec_length]; rfl⟩

/-- A field of v9 holds an element. -/
theorem V9.hasOrigin_of_readField (h : V9.readField c = some (f, c')) : f.HasOrigin := by
  obtain ⟨⟨ty, c₁⟩, -, h⟩ := Option.bind_eq_some_iff.mp h
  obtain ⟨⟨len, c₂⟩, -, h⟩ := Option.bind_eq_some_iff.mp h
  cases h
  exact FieldSpec.hasOrigin_fieldSpec 0 ty len

/-- A scope field of v9 holds a scope. -/
theorem V9.hasOrigin_of_readScopeField (h : V9.readScopeField c = some (f, c')) : f.HasOrigin := by
  obtain ⟨⟨ty, c₁⟩, -, h⟩ := Option.bind_eq_some_iff.mp h
  obtain ⟨⟨len, c₂⟩, -, h⟩ := Option.bind_eq_some_iff.mp h
  cases h
  exact ⟨.scope ty, rfl⟩

/-- A field of IPFIX holds an element. -/
theorem Ipfix.hasOrigin_of_readField (h : Ipfix.readField c = some (f, c')) : f.HasOrigin := by
  obtain ⟨⟨rawId, c₁⟩, -, h⟩ := Option.bind_eq_some_iff.mp h
  obtain ⟨⟨length, c₂⟩, -, h⟩ := Option.bind_eq_some_iff.mp h
  dsimp only at h
  split at h
  · obtain ⟨⟨pen, c₃⟩, -, h⟩ := Option.bind_eq_some_iff.mp h
    cases h
    exact FieldSpec.hasOrigin_fieldSpec pen _ length
  · cases h
    exact FieldSpec.hasOrigin_fieldSpec 0 rawId length

/-- What each field read has, all fields read have. -/
theorem forall_mem_of_readFields {readOne : Cursor → Option (FieldSpec × Cursor)} {P : FieldSpec → Prop}
    (hread : ∀ {c f c'}, readOne c = some (f, c') → P f) {count : ℕ} {fields : List FieldSpec}
    (h : readFields readOne count c = some (fields, c')) : ∀ f ∈ fields, P f := by
  induction count generalizing c fields with
  | zero =>
    cases h
    exact fun _ hmem => absurd hmem List.not_mem_nil
  | succ count ih =>
    obtain ⟨⟨f, c₁⟩, hone, h⟩ := Option.bind_eq_some_iff.mp h
    obtain ⟨⟨rest, c₂⟩, hrest, h⟩ := Option.bind_eq_some_iff.mp h
    cases h
    exact List.forall_mem_cons.mpr ⟨hread hone, ih hrest⟩

/-- All fields of a template that is parsed have an origin. -/
def TemplateSyntax.Originates (syn : TemplateSyntax) : Prop :=
  ∀ c d c', syn.parseOne c = some (d, c') → ∀ f ∈ d.fields, f.HasOrigin

/-- So it is in all formats. -/
theorem TemplatedFormat.originates {call : Call} {fmt : TemplatedFormat} (hformat : call.format = some fmt)
    {id : UInt16} {syn : TemplateSyntax} (h : fmt.templates id = some syn) : syn.Originates := by
  rcases call.format_version hformat with ⟨rfl, -⟩ | ⟨rfl, -⟩
  · simp only [V9.format] at h
    split at h
    · cases h
      intro c d c' hparse
      obtain ⟨⟨templateId, c₁⟩, -, hparse⟩ := Option.bind_eq_some_iff.mp hparse
      obtain ⟨⟨fieldCount, c₂⟩, -, hparse⟩ := Option.bind_eq_some_iff.mp hparse
      obtain ⟨⟨fields, c₃⟩, hfields, hparse⟩ := Option.bind_eq_some_iff.mp hparse
      dsimp only at hparse
      split at hparse
      · contradiction
      · cases hparse
        exact forall_mem_of_readFields V9.hasOrigin_of_readField hfields
    · split at h
      · cases h
        intro c d c' hparse
        obtain ⟨⟨templateId, c₁⟩, -, hparse⟩ := Option.bind_eq_some_iff.mp hparse
        obtain ⟨⟨scopeLen, c₂⟩, -, hparse⟩ := Option.bind_eq_some_iff.mp hparse
        obtain ⟨⟨optionLen, c₃⟩, -, hparse⟩ := Option.bind_eq_some_iff.mp hparse
        obtain ⟨⟨scopes, c₄⟩, hscopes, hparse⟩ := Option.bind_eq_some_iff.mp hparse
        obtain ⟨⟨options, c₅⟩, hoptions, hparse⟩ := Option.bind_eq_some_iff.mp hparse
        dsimp only at hparse
        split at hparse
        · contradiction
        · cases hparse
          exact List.forall_mem_append.mpr ⟨forall_mem_of_readFields V9.hasOrigin_of_readScopeField hscopes,
            forall_mem_of_readFields V9.hasOrigin_of_readField hoptions⟩
      · contradiction
  · have hipfix : ∀ options, (Ipfix.templateSyntax options).Originates := by
      intro options c d c' hparse
      obtain ⟨⟨templateId, c₁⟩, -, hparse⟩ := Option.bind_eq_some_iff.mp hparse
      obtain ⟨⟨fieldCount, c₂⟩, -, hparse⟩ := Option.bind_eq_some_iff.mp hparse
      dsimp only at hparse
      split at hparse
      · contradiction
      · obtain ⟨⟨scopeFieldCount, c₃⟩, -, hparse⟩ := Option.bind_eq_some_iff.mp hparse
        obtain ⟨⟨fields, c₄⟩, hfields, hparse⟩ := Option.bind_eq_some_iff.mp hparse
        cases hparse
        exact forall_mem_of_readFields Ipfix.hasOrigin_of_readField hfields
    simp only [Ipfix.format] at h
    split at h
    · cases h
      exact hipfix false
    · split at h
      · cases h
        exact hipfix true
      · contradiction

/-- All definitions of a Set are parsed. -/
theorem TemplateSyntax.Originates.templateDefs {syn : TemplateSyntax} (h : syn.Originates) {rounds : ℕ}
    {d : TemplateDef} (hd : d ∈ Netflow.templateDefs syn rounds c) : ∀ f ∈ d.fields, f.HasOrigin := by
  induction rounds generalizing c with
  | zero => contradiction
  | succ rounds ih =>
    rw [Netflow.templateDefs] at hd
    split at hd
    · contradiction
    · split at hd
      · contradiction
      · rename_i d' c' hparse
        split at hd
        · rw [List.mem_singleton.mp hd]
          exact h _ _ _ hparse
        · rcases List.mem_cons.mp hd with rfl | hrest
          · exact h _ _ _ hparse
          · exact ih hrest

/-- All fields of a template that a call defines have an origin. -/
theorem Call.hasOrigin_of_mem_learned {call : Call} {p : TemplateKey × Layout} (hp : p ∈ call.learned)
    (hf : f ∈ p.2.fields) : f.HasOrigin := by
  unfold learned at hp
  split at hp
  · rename_i fmt ctx sets hparsed
    obtain ⟨hformat, -, -⟩ := Call.parsed_eq_some hparsed
    obtain ⟨d, hd, rfl⟩ := List.mem_map.mp hp
    obtain ⟨fs, -, hd⟩ := List.mem_flatMap.mp hd
    unfold TemplatedFormat.setDefs at hd
    split at hd
    · rename_i syn hsyntax
      exact (TemplatedFormat.originates hformat hsyntax).templateDefs hd f hf
    · contradiction
  · contradiction

end Templates

section Rows

variable {row : FlowRecord} {e : Emission} {key : String} {flowsOnly : Bool}

/-- Whether a raw field is one of an sFlow sample. -/
def isSflowKey (key : String) : Bool := "sflow.".toList.isPrefixOf key.toList

/-- The name of a value of an sFlow sample looks generated. -/
theorem looksGenerated_of_isSflowKey (h : isSflowKey key) : looksGenerated key.toList := by
  rw [isSflowKey, List.isPrefixOf_iff_prefix] at h
  obtain ⟨rest, hrest⟩ := h
  rw [← hrest]
  rfl

/-- No field of a template has a name like those of sFlow samples. -/
theorem FieldOrigin.not_isSflowKey (o : FieldOrigin) (length : UInt16) : ¬ isSflowKey (o.spec length).name := by
  cases o with
  | element enterpriseNumber ieId =>
    cases hresolve : resolve enterpriseNumber ieId with
    | some d =>
      rw [spec, fieldSpec_of_some hresolve]
      exact fun h => not_looksGenerated_of_mem (mem_namedElements hresolve).1 (looksGenerated_of_isSflowKey h)
    | none =>
      rw [spec, isSflowKey, fieldSpec_name_of_none hresolve]
      split <;> exact Bool.false_ne_true
  | scope ty =>
    simp only [spec, V9.scopeName]
    split_ifs <;> decide

/-- A row of records of a template has the template's id, and a raw field for each field without a column. -/
theorem of_mem_decodeDataSet {tpl : TemplateEntry} {payload : Bytes} {ctx : Ctx}
    (h : row ∈ decodeDataSet tpl payload ctx flowsOnly) (hkey : key ∈ row.rawKeys) :
    row.templateId = some ctx.templateId ∧ key ∈ rawNames tpl.fields := by
  have hfield : ∀ p f bytes, (mapField p f bytes).row.templateId = p.row.templateId := by
    intro p f bytes
    rw [mapField_eq]
    cases f.column with
    | some col => cases col <;> rfl
    | none =>
      obtain ⟨diagnostics, hkept⟩ := keepRaw_eq p f bytes
      rw [hkept]
  have hrecord : ∀ {cur cur'}, decodeOneRecord tpl cur ctx = some (row, cur') →
      row.templateId = some ctx.templateId ∧ key ∈ rawNames tpl.fields := by
    intro cur cur' hone
    refine ⟨?_, by rwa [← rawKeys_decodeOneRecord hone]⟩
    obtain ⟨⟨p, c⟩, hfields, hrow⟩ := Option.bind_eq_some_iff.mp hone
    cases hrow
    have hresolved : (resolveTimes p ctx).templateId = p.row.templateId := by
      unfold resolveTimes
      split <;> rfl
    rw [hresolved, decodeFields_keeps hfield hfields]
    rfl
  have hrecords : ∀ {rounds cur}, row ∈ decodeRecords tpl ctx rounds cur →
      row.templateId = some ctx.templateId ∧ key ∈ rawNames tpl.fields := by
    intro rounds
    induction rounds with
    | zero => exact fun h => absurd h List.not_mem_nil
    | succ rounds ih =>
      intro cur h
      rw [decodeRecords] at h
      split at h
      · contradiction
      · split at h
        · contradiction
        · split at h
          · rw [List.mem_singleton.mp h] at hkey
            contradiction
          · rename_i row' cur' hone
            split at h
            · rw [List.mem_singleton.mp h] at hrecord ⊢
              exact hrecord hone
            · rcases List.mem_cons.mp h with rfl | hrest
              · exact hrecord hone
              · exact ih hrest
  unfold decodeDataSet at h
  split at h
  · contradiction
  · exact hrecords h

/-- A v5 row has no raw field. -/
theorem V5.rawKeys_of_mem_decode {data : Bytes} {exporter : String} (h : row ∈ V5.decode data exporter) :
    row.rawKeys = [] := by
  have hrecords : ∀ {obsDomain hdr bootMicros count cur},
      row ∈ V5.decodeRecords exporter obsDomain hdr bootMicros count cur → row.rawKeys = [] := by
    intro obsDomain hdr bootMicros count
    induction count with
    | zero => exact fun h => absurd h List.not_mem_nil
    | succ count ih =>
      intro cur h
      rw [V5.decodeRecords] at h
      split at h
      · rw [List.mem_singleton.mp h]
        rfl
      · rcases List.mem_cons.mp h with hhere | hrest
        · rw [hhere, FlowRecord.rawKeys, V5.rawFields_decodeRecord, List.map_nil]
        · exact ih hrest
  unfold V5.decode at h
  split at h
  · rw [List.mem_singleton.mp h]
    rfl
  · exact hrecords h

/-- The raw fields of an sFlow sample are named like those of sFlow samples. -/
theorem Sflow.isSflowKey_of_mem_samplesTrace {exporterId : String} {subAgentId : UInt32} {sequence : UInt64}
    {count : ℕ} {c : Cursor} (h : e ∈ samplesTrace exporterId subAgentId sequence count c)
    (hrow : row ∈ e.rows flowsOnly) (hkey : key ∈ row.rawKeys) : isSflowKey key := by
  have hfold : ∀ (f : UInt32 → Bytes → FlowRecord → FlowRecord),
      (∀ recType body row, (∀ key ∈ row.rawKeys, isSflowKey key) →
        ∀ key ∈ (f recType body row).rawKeys, isSflowKey key) →
      ∀ count c row, (∀ key ∈ row.rawKeys, isSflowKey key) →
        ∀ key ∈ (foldRecords f count c row).rawKeys, isSflowKey key := by
    intro f hf count c row hstart
    rw [foldRecords_eq]
    generalize typedBodies count c = records
    induction records generalizing row with
    | nil => exact hstart
    | cons r records ih => exact ih _ (hf _ _ _ hstart)
  obtain ⟨own, he, hcases⟩ := cases_of_mem_samplesTrace h
  obtain rfl := Emission.eq_of_mem_rows he hrow
  rcases hcases with rfl | ⟨body, expanded, hflow | rfl⟩
  · contradiction
  · unfold decodeFlowSample at hflow
    rw [List.mem_singleton.mp hflow] at hkey
    refine hfold _ ?_ _ _ _ ?_ key hkey
    · intro recType rbody row hstart key hkey
      rw [parseFlowRecord_rawKeys] at hkey
      rcases List.mem_append.mp hkey with hold | hnew
      · exact hstart key hold
      · split at hnew
        · have hall : ∀ key ∈ ["sflow.frame_length", "sflow.sampling_rate"], isSflowKey key := by decide
          exact hall key hnew
        · contradiction
    · exact fun _ hmem => absurd hmem List.not_mem_nil
  · unfold decodeCounterSample at hkey
    refine hfold _ ?_ _ _ _ ?_ key hkey
    · intro recType rbody row hstart key hkey
      rw [FlowRecord.rawKeys_putRaw] at hkey
      rcases List.mem_append.mp hkey with hold | hnew
      · exact hstart key hold
      · rw [List.mem_singleton.mp hnew, isSflowKey, List.isPrefixOf_iff_prefix]
        change _ <+: ("sflow.counter_format_" ++ _).toList
        rw [String.toList_append]
        exact List.IsPrefix.trans (by decide) (List.prefix_append _ _)
    · exact fun _ hmem => absurd hmem List.not_mem_nil

/-- The raw fields of a datagram without templates are those of sFlow samples. -/
theorem Call.isSflowKey_of_mem_statelessTrace {call : Call} (h : e ∈ call.statelessTrace)
    (hrow : row ∈ e.rows flowsOnly) (hkey : key ∈ row.rawKeys) : isSflowKey key := by
  have hsflow : e ∈ Sflow.trace call.data call.opts.exporter → isSflowKey key := by
    intro h
    unfold Sflow.trace at h
    split at h
    · rw [List.mem_singleton.mp h] at hrow
      rw [List.mem_singleton.mp hrow] at hkey
      contradiction
    · exact Sflow.isSflowKey_of_mem_samplesTrace h hrow hkey
  have hv5 : e ∈ (V5.decode call.data call.opts.exporter).map .row → isSflowKey key := by
    intro h
    obtain ⟨own, hown, rfl⟩ := List.mem_map.mp h
    rw [Emission.eq_of_mem_rows (.inl rfl) hrow] at hkey
    rw [V5.rawKeys_of_mem_decode hown] at hkey
    contradiction
  have hnone : ∀ exporter flowVersion obsDomain exportTime sequence text,
      e = .row (.diagnostic exporter flowVersion obsDomain exportTime sequence text) → isSflowKey key := by
    intro exporter flowVersion obsDomain exportTime sequence text he
    rw [Emission.eq_of_mem_rows (.inl he) hrow] at hkey
    contradiction
  unfold Call.statelessTrace at h
  split at h
  · have he := List.mem_singleton.mp h
    rw [Call.rejection] at he
    split at he
    · exact hnone _ _ _ _ _ _ he
    · exact hnone _ _ _ _ _ _ he
  · split at h
    · exact hv5 h
    · exact hv5 h
    · exact hsflow h
    · exact hsflow h
    · exact hnone _ _ _ _ _ _ (List.mem_singleton.mp h)
    · exact hnone _ _ _ _ _ _ (List.mem_singleton.mp h)

end Rows

section Scans

variable {calls : List Call} {capEntries capPendingBytes : UInt32} {row : FlowRecord} {key : String}

/-- Every row of a scan has an origin in its trace. -/
theorem exists_of_mem_scanRows {c : TemplateCache} (h : row ∈ scanRows calls c) :
    ∃ e ∈ scanTrace calls c, ∃ flowsOnly, row ∈ e.rows flowsOnly := by
  rw [scanRows, runCalls_eq_trace] at h
  dsimp only at h
  rw [scanTrace]
  dsimp only
  rcases List.mem_append.mp h with hcall | hflush
  · obtain ⟨rows, hrows, hrow⟩ := List.mem_flatten.mp hcall
    obtain ⟨i, hi, rfl⟩ := List.mem_iff_getElem.mp hrows
    rw [List.getElem_zipWith] at hrow
    obtain ⟨e, he, hrow⟩ := List.mem_flatMap.mp hrow
    exact ⟨e, List.mem_append_left _ (List.mem_flatten.mpr ⟨_, List.getElem_mem _, he⟩), _, hrow⟩
  · rw [flushPending_eq_trace false] at hflush
    obtain ⟨e, he, hrow⟩ := List.mem_flatMap.mp hflush
    exact ⟨e, List.mem_append_right _ he, false, hrow⟩

/-- A Data Set of a scan is decoded with a template that one of the calls defines. -/
theorem mem_learned_of_mem_scanTrace {templateKey : TemplateKey} {tpl : TemplateEntry} {rec : PendingRecord}
    (h : .dataSet templateKey tpl rec ∈ scanTrace calls (.empty capEntries capPendingBytes)) :
    (templateKey, tpl.layout) ∈ calls.flatMap Call.learned := by
  have hrun : Run (learnableFrom (calls.flatMap Call.learned)) _ _ _ _ :=
    scanTrace_run (fun _ _ h => h) (.empty capEntries capPendingBytes)
  have hstart : (TemplateCache.empty capEntries capPendingBytes).binding.Sound
      (learnableFrom (calls.flatMap Call.learned)) := by
    intro key layout hknown
    simp [TemplateCache.binding, TemplateCache.empty] at hknown
  have hmem : .resolved templateKey tpl.layout rec ∈ outcomes (scanTrace calls (.empty capEntries capPendingBytes)) :=
    Multiset.mem_coe.mpr (List.mem_filterMap.mpr ⟨_, h, rfl⟩)
  exact (hrun.sound hstart).2 _ hmem

/-- The key of a raw field tells where its value is from, in every scan: a key that begins as those of sFlow samples
is the name of no field. Any other is the name of a field of a template that was defined for the exporter, the domain
and the template id that the row shows, and no other element or scope has this name, but for the scope types that
have none. -/
theorem scanRows_rawKeys (hrow : row ∈ scanRows calls (.empty capEntries capPendingBytes)) (hkey : key ∈ row.rawKeys) :
    (isSflowKey key ∧ ∀ (o : FieldOrigin) length, (o.spec length).name ≠ key) ∨
      ∃ p ∈ calls.flatMap Call.learned, row.exporter = p.1.exporter ∧ row.obsDomain = p.1.obsDomain ∧
        row.templateId = some p.1.templateId ∧ ∃ f ∈ p.2.fields, f.name = key ∧ f.column = none ∧
        ∃ o : FieldOrigin, f = o.spec f.length ∧ ∀ (o' : FieldOrigin) length, (o'.spec length).name = key →
          o' = o ∨ o'.IsOther ∧ o.IsOther := by
  have hsflow : isSflowKey key → ∀ (o : FieldOrigin) length, (o.spec length).name ≠ key :=
    fun hkey o length heq => o.not_isSflowKey length (heq ▸ hkey)
  obtain ⟨e, he, flowsOnly, hrow⟩ := exists_of_mem_scanRows hrow
  cases hstateless : e.isStateless with
  | true =>
    have hmem : e ∈ (scanTrace calls (.empty capEntries capPendingBytes)).filter Emission.isStateless :=
      List.mem_filter.mpr ⟨he, hstateless⟩
    rw [scanTrace_filter_isStateless] at hmem
    obtain ⟨call, -, hmem⟩ := List.mem_flatMap.mp hmem
    have htrace : e ∈ call.statelessTrace := by
      unfold Call.stateless at hmem
      split at hmem
      · contradiction
      · exact hmem
    have hsample := Call.isSflowKey_of_mem_statelessTrace htrace hrow hkey
    exact .inl ⟨hsample, hsflow hsample⟩
  | false =>
    cases e with
    | row | counterSample => contradiction
    | missing templateKey rec version =>
      rw [List.mem_singleton.mp hrow] at hkey
      contradiction
    | dataSet templateKey tpl rec =>
      have hlearned := mem_learned_of_mem_scanTrace he
      obtain ⟨call, -, hdefines⟩ := List.mem_flatMap.mp hlearned
      have hheading := heading_of_mem_decodeDataSet hrow
      obtain ⟨htemplate, hname⟩ := of_mem_decodeDataSet hrow hkey
      obtain ⟨f, hf, hfkey⟩ := List.mem_map.mp hname
      obtain ⟨hf, hcolumn⟩ := List.mem_filter.mp hf
      obtain ⟨o, ho⟩ := Call.hasOrigin_of_mem_learned hdefines hf
      refine .inr ⟨_, hlearned, congrArg Heading.exporter hheading, congrArg Heading.obsDomain hheading, htemplate,
        f, hf, hfkey, of_decide_eq_true hcolumn, o, ho, fun o' length heq => ?_⟩
      rw [← hfkey, ho] at heq
      exact (o'.name_eq_iff o _ _).mp heq

/-- The calls of an options template with one scope, and a record of it. -/
def sampleScoped : List Call := [.of sampleOptionsTemplate "10.0.0.1", .of sampleOptionsData "10.0.0.1"]

/-- The row of the record. -/
def sampleScopedRow : FlowRecord := (scanRows sampleScoped (.empty 4 64)).headD {}

/-- The raw field of the row is the scope of the template. -/
theorem scanRows_rawKeys_scope :
    (isSflowKey "scope_system" ∧ ∀ (o : FieldOrigin) length, (o.spec length).name ≠ "scope_system") ∨
      ∃ p ∈ sampleScoped.flatMap Call.learned, sampleScopedRow.exporter = p.1.exporter ∧
        sampleScopedRow.obsDomain = p.1.obsDomain ∧ sampleScopedRow.templateId = some p.1.templateId ∧
        ∃ f ∈ p.2.fields, f.name = "scope_system" ∧ f.column = none ∧
        ∃ o : FieldOrigin, f = o.spec f.length ∧ ∀ (o' : FieldOrigin) length, (o'.spec length).name = "scope_system" →
          o' = o ∨ o'.IsOther ∧ o.IsOther :=
  @scanRows_rawKeys sampleScoped 4 64 sampleScopedRow "scope_system" (by decide +kernel) (by decide +kernel)

end Scans

end Netflow
