import Mathlib.Data.Nat.Bitwise
import Netflow.Common.Framing
import Netflow.Encode

/-!
# Writing template Sets

The template records of the four kinds of Sets as exporters write them, and their parsers as
readers of these records. A parser reads back what was written, does not look past it and
does not read a record that is cut. So a template Set cut anywhere teaches the templates
that lie wholly before the cut.
-/

namespace Netflow

section Reads

/-- Whether more bytes leave alone what is read off a cursor and is left over. -/
def Cursor.Local {α : Type} (read : Cursor → Option (α × Cursor)) : Prop :=
  ∀ (input more : Bytes) value rest, read ⟨input⟩ = some (value, rest) →
    read ⟨input ++ more⟩ = some (value, ⟨rest.rest ++ more⟩)

/-- Failing and giving a value without a read are local. -/
theorem Cursor.Local.pure {α : Type} (value : α) : Cursor.Local fun c => some (value, c) := by
  intro input more value rest h
  cases h
  rfl

/-- Failing is local. -/
theorem Cursor.Local.none {α : Type} : Cursor.Local fun _ => (none : Option (α × Cursor)) := by
  intro input more value rest h
  contradiction

/-- A local read and a local one after it are local together. -/
theorem Cursor.Local.bind {α β : Type} {f : Cursor → Option (α × Cursor)} {g : α × Cursor → Option (β × Cursor)}
    (hf : Cursor.Local f) (hg : ∀ a, Cursor.Local fun c => g (a, c)) : Cursor.Local fun c => (f c).bind g := by
  intro input more value rest h
  obtain ⟨⟨a, middle⟩, hfirst, hsecond⟩ := Option.bind_eq_some_iff.mp h
  dsimp only
  rw [hf input more a middle hfirst, Option.bind_some]
  exact hg a middle.rest more value rest hsecond

/-- Taking bytes is local. -/
theorem Cursor.Local.take (n : ℕ) : Cursor.Local fun c => c.take n := by
  intro input more value rest h
  obtain ⟨hle, rfl, hrest⟩ := Cursor.take_eq_some h
  dsimp only [Cursor.remaining] at hle hrest ⊢
  rw [Cursor.take_of_le (by simp only [Cursor.remaining, List.length_append]; omega)]
  simp only [hrest, List.take_append_of_le_length hle, List.drop_append_of_le_length hle]

/-- Reading a 16-bit number is local. -/
theorem Cursor.Local.u16 : Cursor.Local Cursor.u16 := by
  have h : Cursor.u16 = fun c => (c.take 2).bind fun p => some (.ofNat (beNat p.1), p.2) := by
    funext c
    simp only [Cursor.u16, Cursor.readBe, Option.map_map]
    cases c.take 2 <;> rfl
  rw [h]
  exact .bind (.take 2) fun bytes => .pure (UInt16.ofNat (beNat bytes))

/-- Reading a 32-bit number is local. -/
theorem Cursor.Local.u32 : Cursor.Local Cursor.u32 := by
  have h : Cursor.u32 = fun c => (c.take 4).bind fun p => some (.ofNat (beNat p.1), p.2) := by
    funext c
    simp only [Cursor.u32, Cursor.readBe, Option.map_map]
    cases c.take 4 <;> rfl
  rw [h]
  exact .bind (.take 4) fun bytes => .pure (UInt32.ofNat (beNat bytes))

/-- Reading some fields is local, if reading one is. -/
theorem Cursor.Local.readFields {readOne : Cursor → Option (FieldSpec × Cursor)} (h : Cursor.Local readOne)
    (count : ℕ) : Cursor.Local (Netflow.readFields readOne count) := by
  induction count with
  | zero => exact .pure []
  | succ count ih => exact .bind h fun f => .bind ih fun fields => .pure (f :: fields)

/-- Reading a v9 field specifier is local. -/
theorem V9.readField_local : Cursor.Local V9.readField :=
  .bind .u16 fun ty => .bind .u16 fun len => .pure (fieldSpec 0 ty len)

/-- Reading a v9 scope specifier is local. -/
theorem V9.readScopeField_local : Cursor.Local V9.readScopeField :=
  .bind .u16 fun ty => .bind .u16 fun len =>
    .pure (FieldSpec.mk ty scopePen len s!"scope_{scopeName ty}" .octetArray)

/-- Reading an IPFIX field specifier is local. -/
theorem Ipfix.readField_local : Cursor.Local Ipfix.readField := by
  refine .bind .u16 fun rawId => .bind .u16 fun length => ?_
  dsimp only
  split
  · exact .bind .u32 fun pen => .pure (fieldSpec pen (rawId &&& 0x7fff) length)
  · exact .pure (fieldSpec 0 rawId length)

/-- Parsing a v9 template is local. -/
theorem V9.parseTemplate_local : Cursor.Local V9.parseTemplate := by
  refine .bind .u16 fun templateId => .bind .u16 fun fieldCount =>
    .bind (.readFields V9.readField_local fieldCount.toNat) fun fields => ?_
  dsimp only
  split
  · exact .none
  · exact .pure (TemplateDef.mk templateId .data fields 0)

/-- Parsing a v9 options template is local. -/
theorem V9.parseOptionsTemplate_local : Cursor.Local V9.parseOptionsTemplate := by
  refine .bind .u16 fun templateId => .bind .u16 fun scopeLen => .bind .u16 fun optionLen =>
    .bind (.readFields V9.readScopeField_local (scopeLen / 4).toNat) fun scopes =>
    .bind (.readFields V9.readField_local (optionLen / 4).toNat) fun options => ?_
  dsimp only
  split
  · exact .none
  · exact .pure (TemplateDef.mk templateId .options (scopes ++ options) (scopeLen / 4))

/-- Parsing an IPFIX template is local. -/
theorem Ipfix.parseTemplate_local (options : Bool) : Cursor.Local (Ipfix.parseTemplate options) := by
  have hcount : Cursor.Local (Ipfix.readScopeFieldCount options) := by
    unfold Ipfix.readScopeFieldCount
    cases options with
    | true => exact .u16
    | false => exact .pure 0
  refine .bind .u16 fun templateId => .bind .u16 fun fieldCount => ?_
  by_cases hend : templateId = 0 ∨ fieldCount = 0
  · simp only [if_pos hend]
    exact .none
  · simp only [if_neg hend]
    refine .bind hcount fun scopeFieldCount => ?_
    dsimp only
    exact .bind (.readFields Ipfix.readField_local fieldCount.toNat) fun fields =>
      .pure (TemplateDef.mk templateId (if options then .options else .data) fields scopeFieldCount)

end Reads

section V9

namespace V9

/-- A v9 field specifier on the wire. -/
def encodeSpecifier (element : UInt16 × UInt16) : Bytes :=
  beBytes 2 element.1.toNat ++ beBytes 2 element.2.toNat

/-- A scope specifier as it is learned. -/
def scopeSpec (element : UInt16 × UInt16) : FieldSpec :=
  ⟨element.1, scopePen, element.2, s!"scope_{scopeName element.1}", .octetArray⟩

/-- A v9 template record: the type and the length of each field. -/
structure WireTemplate where
  templateId : UInt16
  fields : List (UInt16 × UInt16)
  templateId_ne_zero : templateId ≠ 0
  length_lt : fields.length < 65536

/-- A v9 template record on the wire. -/
def WireTemplate.encode (t : WireTemplate) : Bytes := encodeTemplate t.templateId t.fields

/-- The definition a v9 template record is learned as. -/
def WireTemplate.parsed (t : WireTemplate) : TemplateDef :=
  ⟨t.templateId, .data, t.fields.map fun (ieId, length) => fieldSpec 0 ieId length, 0⟩

/-- A v9 options template record: its scope and option fields, each list of fewer than 2^16 bytes. -/
structure WireOptionsTemplate where
  templateId : UInt16
  scopes : List (UInt16 × UInt16)
  options : List (UInt16 × UInt16)
  templateId_ne_zero : templateId ≠ 0
  scopes_lt : 4 * scopes.length < 65536
  options_lt : 4 * options.length < 65536

/-- A v9 options template record on the wire, its two lengths in bytes. -/
def WireOptionsTemplate.encode (t : WireOptionsTemplate) : Bytes :=
  beBytes 2 t.templateId.toNat ++ (beBytes 2 (4 * t.scopes.length) ++ (beBytes 2 (4 * t.options.length) ++
    (t.scopes.flatMap encodeSpecifier ++ t.options.flatMap encodeSpecifier)))

/-- The definition a v9 options template record is learned as. -/
def WireOptionsTemplate.parsed (t : WireOptionsTemplate) : TemplateDef :=
  ⟨t.templateId, .options,
    t.scopes.map scopeSpec ++ t.options.map fun (ieId, length) => fieldSpec 0 ieId length,
    .ofNat t.scopes.length⟩

/-- A written scope specifier is read back. -/
theorem readScopeField_encodeSpecifier (element : UInt16 × UInt16) (rest : Bytes) :
    readScopeField ⟨encodeSpecifier element ++ rest⟩ = some (scopeSpec element, ⟨rest⟩) := by
  simp only [readScopeField, encodeSpecifier, List.append_assoc, u16_beBytes, Option.bind_eq_bind,
    Option.bind_some]
  rfl

/-- A written option specifier is read back. -/
theorem readField_encodeSpecifier (element : UInt16 × UInt16) (rest : Bytes) :
    readField ⟨encodeSpecifier element ++ rest⟩ = some (fieldSpec 0 element.1 element.2, ⟨rest⟩) :=
  readField_beBytes element rest

/-- A length in bytes that counts whole specifiers gives their number. -/
theorem ofNat_four_mul_div {n : ℕ} (h : 4 * n < 65536) : (UInt16.ofNat (4 * n) / 4) = .ofNat n := by
  apply UInt16.toNat_inj.mp
  rw [UInt16.toNat_div, UInt16.toNat_ofNat_of_lt' h, UInt16.toNat_ofNat_of_lt' (show n < 2 ^ 16 by omega)]
  exact Nat.mul_div_cancel_left n (by decide)

/-- A written options template is read back. -/
theorem parseOptionsTemplate_encode (t : WireOptionsTemplate) (rest : Bytes) :
    parseOptionsTemplate ⟨t.encode ++ rest⟩ = some (t.parsed, ⟨rest⟩) := by
  have hscopes : (UInt16.ofNat t.scopes.length).toNat = t.scopes.length :=
    UInt16.toNat_ofNat_of_lt' (show t.scopes.length < 2 ^ 16 by have := t.scopes_lt; omega)
  have hoptions : (UInt16.ofNat t.options.length).toNat = t.options.length :=
    UInt16.toNat_ofNat_of_lt' (show t.options.length < 2 ^ 16 by have := t.options_lt; omega)
  simp only [WireOptionsTemplate.encode, List.append_assoc, parseOptionsTemplate, u16_beBytes,
    u16_beBytes_of_lt t.scopes_lt, u16_beBytes_of_lt t.options_lt, ofNat_four_mul_div t.scopes_lt,
    ofNat_four_mul_div t.options_lt, hscopes, hoptions, Option.bind_eq_bind, Option.bind_some,
    readFields_flatMap readScopeField_encodeSpecifier, readFields_flatMap readField_encodeSpecifier,
    t.templateId_ne_zero, if_false]
  rfl

end V9

end V9

section Ipfix

namespace Ipfix

/-- An IPFIX field specifier on the wire: a standard element, or one of an enterprise. -/
inductive WireField
  | standard (ieId length : UInt16) (ieId_lt : ieId < 0x8000)
  | enterprise (ieId length : UInt16) (pen : UInt32) (ieId_lt : ieId < 0x8000)

/-- The bytes of an IPFIX field specifier. The high bit of the element id announces the enterprise number. -/
def WireField.encode : WireField → Bytes
  | .standard ieId length _ => beBytes 2 ieId.toNat ++ beBytes 2 length.toNat
  | .enterprise ieId length pen _ =>
    beBytes 2 (ieId ||| 0x8000).toNat ++ (beBytes 2 length.toNat ++ beBytes 4 pen.toNat)

/-- An IPFIX field specifier as it is learned. -/
def WireField.spec : WireField → FieldSpec
  | .standard ieId length _ => fieldSpec 0 ieId length
  | .enterprise ieId length pen _ => fieldSpec pen ieId length

/-- An IPFIX template record with at least one field. Only options templates carry the scope field count. -/
structure WireTemplate where
  templateId : UInt16
  scopeFieldCount : UInt16
  fields : List WireField
  templateId_ne_zero : templateId ≠ 0
  fields_ne_nil : fields ≠ []
  length_lt : fields.length < 65536

/-- An IPFIX template record on the wire. -/
def WireTemplate.encode (options : Bool) (t : WireTemplate) : Bytes :=
  beBytes 2 t.templateId.toNat ++ (beBytes 2 t.fields.length ++
    ((if options then beBytes 2 t.scopeFieldCount.toNat else []) ++ t.fields.flatMap WireField.encode))

/-- The definition an IPFIX template record is learned as. -/
def WireTemplate.parsed (options : Bool) (t : WireTemplate) : TemplateDef :=
  ⟨t.templateId, if options then .options else .data, t.fields.map WireField.spec,
    if options then t.scopeFieldCount else 0⟩

/-- An element id below `0x8000` has its high bit clear. -/
theorem and_highBit {ieId : UInt16} (h : ieId < 0x8000) : ieId &&& 0x8000 = 0 := by
  have hlt : ieId.toNat < 2 ^ 15 := h
  apply UInt16.toNat_inj.mp
  rw [UInt16.toNat_and]
  change ieId.toNat &&& 2 ^ 15 = 0
  rw [Nat.and_two_pow, Nat.testBit_lt_two_pow hlt]
  rfl

/-- Setting the high bit of an element id adds `0x8000`. -/
theorem toNat_or_highBit {ieId : UInt16} (h : ieId < 0x8000) : (ieId ||| 0x8000).toNat = 2 ^ 15 + ieId.toNat := by
  have hlt : ieId.toNat < 2 ^ 15 := h
  rw [UInt16.toNat_or, Nat.or_comm]
  exact (Nat.two_pow_add_eq_or_of_lt hlt 1).symm

/-- A set high bit is seen. -/
theorem or_highBit_and {ieId : UInt16} (h : ieId < 0x8000) : (ieId ||| 0x8000) &&& 0x8000 ≠ 0 := by
  have hlt : ieId.toNat < 2 ^ 15 := h
  intro hzero
  have hnat := congrArg UInt16.toNat hzero
  rw [UInt16.toNat_and, toNat_or_highBit h] at hnat
  change (2 ^ 15 + ieId.toNat) &&& 2 ^ 15 = 0 at hnat
  rw [Nat.and_two_pow, Nat.testBit_two_pow_add_eq, Nat.testBit_lt_two_pow hlt] at hnat
  contradiction

/-- Clearing the high bit gives the element id back. -/
theorem or_highBit_and_mask {ieId : UInt16} (h : ieId < 0x8000) : (ieId ||| 0x8000) &&& 0x7fff = ieId := by
  have hlt : ieId.toNat < 2 ^ 15 := h
  apply UInt16.toNat_inj.mp
  rw [UInt16.toNat_and, toNat_or_highBit h]
  change (2 ^ 15 + ieId.toNat) &&& (2 ^ 15 - 1) = ieId.toNat
  rw [Nat.and_two_pow_sub_one_eq_mod, Nat.add_mod_left, Nat.mod_eq_of_lt hlt]

/-- A written field specifier is read back. -/
theorem readField_encode (f : WireField) (rest : Bytes) :
    readField ⟨f.encode ++ rest⟩ = some (f.spec, ⟨rest⟩) := by
  cases f with
  | standard ieId length hlt =>
    simp [readField, WireField.encode, WireField.spec, List.append_assoc, u16_beBytes, and_highBit hlt]
  | enterprise ieId length pen hlt =>
    simp only [readField, WireField.encode, List.append_assoc, u16_beBytes, u32_beBytes, Option.bind_eq_bind,
      Option.bind_some, ne_eq, or_highBit_and hlt, not_false_eq_true, if_true, or_highBit_and_mask hlt,
      WireField.spec]

/-- A written template is read back. -/
theorem parseTemplate_encode (options : Bool) (t : WireTemplate) (rest : Bytes) :
    parseTemplate options ⟨t.encode options ++ rest⟩ = some (t.parsed options, ⟨rest⟩) := by
  have hcount : (UInt16.ofNat t.fields.length).toNat = t.fields.length := UInt16.toNat_ofNat_of_lt' t.length_lt
  have hnonzero : UInt16.ofNat t.fields.length ≠ 0 := by
    intro hzero
    rw [hzero] at hcount
    exact t.fields_ne_nil (List.length_eq_zero_iff.mp hcount.symm)
  have hscope : ∀ rest : Bytes, readScopeFieldCount options
      ⟨(if options then beBytes 2 t.scopeFieldCount.toNat else []) ++ rest⟩ =
        some (if options then t.scopeFieldCount else 0, ⟨rest⟩) := by
    intro rest
    cases options with
    | true => exact u16_beBytes t.scopeFieldCount rest
    | false => rfl
  simp only [WireTemplate.encode, List.append_assoc, parseTemplate, u16_beBytes, u16_beBytes_of_lt t.length_lt,
    t.templateId_ne_zero, hnonzero, or_self, if_false, hscope, hcount, readFields_flatMap readField_encode,
    Option.bind_eq_bind, Option.bind_some]
  rfl

end Ipfix

end Ipfix

section Sets

open Framing (fitting)

/-- Reading one template off the front of a Set body. -/
def TemplateSyntax.read (syn : TemplateSyntax) (body : Bytes) : Option (TemplateDef × Bytes) :=
  (syn.parseOne ⟨body⟩).map fun (d, c) => (d, c.rest)

/-- Whether a Set body goes on with what ends the Set. -/
def TemplateSyntax.stop (syn : TemplateSyntax) (body : Bytes) : Bool :=
  syn.stopAtZeros ∧ (Cursor.mk body).peek 2 = some [0, 0]

/-- The template loop is a scan of the body. -/
theorem templateDefs_eq_scan (syn : TemplateSyntax) (rounds : ℕ) (body : Bytes) :
    templateDefs syn rounds ⟨body⟩ = Framing.scan syn.read syn.stop syn.minLen rounds body := by
  induction rounds generalizing body with
  | zero => rfl
  | succ rounds ih =>
    have hlength : (Cursor.mk body).remaining = body.length := rfl
    simp only [templateDefs, Framing.scan, hlength, TemplateSyntax.read]
    cases syn.parseOne ⟨body⟩ with
    | none => rfl
    | some parsed =>
      obtain ⟨d, rest⟩ := parsed
      simp only [Option.map_some, TemplateSyntax.stop, decide_eq_true_eq, ← ih]

/-- What a parser reads back whatever follows is written for its loop, if it starts with an id that is not
zero. -/
theorem TemplateSyntax.writes {R : Type} {syn : TemplateSyntax} {encode : R → Bytes} {parsed : R → TemplateDef}
    (hlocal : Cursor.Local syn.parseOne) (hpos : 0 < syn.minLen)
    (hparse : ∀ r rest, syn.parseOne ⟨encode r ++ rest⟩ = some (parsed r, ⟨rest⟩))
    (hid : ∀ r, ∃ (id : UInt16) (body : Bytes), id ≠ 0 ∧ encode r = beBytes 2 id.toNat ++ body)
    (hmin : ∀ r, syn.minLen ≤ (encode r).length) :
    Framing.Writes syn.read syn.stop syn.minLen encode parsed where
  isLocal input more value rest h := by
    obtain ⟨⟨d, c⟩, hread, heq⟩ := Option.map_eq_some_iff.mp h
    cases heq
    rw [TemplateSyntax.read, hlocal input more value c hread]
    rfl
  read_encode r rest := by
    rw [TemplateSyntax.read, hparse]
    rfl
  short_le := hmin
  short_pos := hpos
  not_stop r rest := by
    obtain ⟨id, body, hne, hencode⟩ := hid r
    have hbytes : beBytes 2 id.toNat ≠ [0, 0] := by
      intro hzero
      have hnat := beNat_beBytes_of_lt (show id.toNat < 256 ^ 2 from id.toNat_lt)
      rw [hzero] at hnat
      exact hne (UInt16.toNat_inj.mp hnat.symm)
    have hpeek : (Cursor.mk (encode r ++ rest)).peek 2 = some (beBytes 2 id.toNat) := by
      have hlen : ¬ (Cursor.mk (beBytes 2 id.toNat ++ (body ++ rest))).remaining < 2 := by
        rw [Cursor.remaining, List.length_append, beBytes_length]
        omega
      rw [hencode, List.append_assoc, Cursor.peek, if_neg hlen, take_beBytes]
    simp [TemplateSyntax.stop, hpeek, hbytes]

/-- Whether a parser of template Sets undoes an encoding: of every prefix of written records it learns, in
order, those that lie wholly in it, and of all of them before up to three bytes of padding it learns all. -/
def ParsesBack {R : Type} (parse : Bytes → String → UInt32 → Int64 → TemplateCache → TemplateCache)
    (encode : R → Bytes) (parsed : R → TemplateDef) : Prop :=
  ∀ (records : List R) (exporter : String) (obsDomain : UInt32) (now : Int64) (cache : TemplateCache),
    (∀ n, parse ((records.flatMap encode).take n) exporter obsDomain now cache =
      learnDefs exporter obsDomain now ((fitting encode n records).map parsed) cache) ∧
    ∀ k ≤ 3, parse (records.flatMap encode ++ List.replicate k 0) exporter obsDomain now cache =
      learnDefs exporter obsDomain now (records.map parsed) cache

/-- The parser of a kind of template Sets undoes what is written for its loop. -/
theorem TemplateSyntax.parsesBack {R : Type} {syn : TemplateSyntax} {encode : R → Bytes}
    {parsed : R → TemplateDef} (h : Framing.Writes syn.read syn.stop syn.minLen encode parsed)
    (hmin : 4 ≤ syn.minLen) : ParsesBack (parseTemplateSet syn) encode parsed := by
  intro records exporter obsDomain now cache
  constructor
  · intro n
    rw [parseTemplateSet, learnTemplates_eq]
    refine congrArg (learnDefs exporter obsDomain now · cache) ?_
    exact (templateDefs_eq_scan syn _ _).trans (h.scan_take records n le_rfl)
  · intro k hk
    rw [parseTemplateSet, learnTemplates_eq]
    refine congrArg (learnDefs exporter obsDomain now · cache) ?_
    refine (templateDefs_eq_scan syn _ _).trans (h.scan_append records (.inl ?_) le_rfl)
    rw [List.length_replicate]
    omega

/-- Written v9 template records are written for the loop of a Template FlowSet. -/
theorem V9.WireTemplate.writes : Framing.Writes V9.templateSyntax.read V9.templateSyntax.stop
    V9.templateSyntax.minLen V9.WireTemplate.encode V9.WireTemplate.parsed := by
  refine TemplateSyntax.writes V9.parseTemplate_local (by decide) ?_ ?_ ?_
  · exact fun t => parseTemplate_encodeTemplate t.templateId_ne_zero t.length_lt
  · exact fun t => ⟨t.templateId, _, t.templateId_ne_zero, rfl⟩
  · intro t
    simp only [encode, encodeTemplate, List.length_append, beBytes_length, V9.templateSyntax]
    omega

/-- Written v9 options template records are written for the loop of an Options Template FlowSet. -/
theorem V9.WireOptionsTemplate.writes : Framing.Writes V9.optionsTemplateSyntax.read
    V9.optionsTemplateSyntax.stop V9.optionsTemplateSyntax.minLen V9.WireOptionsTemplate.encode
    V9.WireOptionsTemplate.parsed := by
  refine TemplateSyntax.writes V9.parseOptionsTemplate_local (by decide) V9.parseOptionsTemplate_encode ?_ ?_
  · exact fun t => ⟨t.templateId, _, t.templateId_ne_zero, rfl⟩
  · intro t
    simp only [encode, List.length_append, beBytes_length, V9.optionsTemplateSyntax]
    omega

/-- Written IPFIX template records are written for the loop of a (possibly Options) Template Set. -/
theorem Ipfix.WireTemplate.writes (options : Bool) : Framing.Writes (Ipfix.templateSyntax options).read
    (Ipfix.templateSyntax options).stop (Ipfix.templateSyntax options).minLen
    (Ipfix.WireTemplate.encode options) (Ipfix.WireTemplate.parsed options) := by
  have hpos : 0 < (Ipfix.templateSyntax options).minLen := show 0 < 4 by decide
  refine TemplateSyntax.writes (Ipfix.parseTemplate_local options) hpos
    (Ipfix.parseTemplate_encode options) ?_ ?_
  · exact fun t => ⟨t.templateId, _, t.templateId_ne_zero, rfl⟩
  · intro t
    simp only [encode, List.length_append, beBytes_length, Ipfix.templateSyntax]
    omega

/-- The parsers of all four kinds of template Sets undo the encoding of their records, cut anywhere. -/
theorem parseTemplates_parsesBack :
    ParsesBack V9.parseTemplates V9.WireTemplate.encode V9.WireTemplate.parsed ∧
      ParsesBack V9.parseOptionsTemplates V9.WireOptionsTemplate.encode V9.WireOptionsTemplate.parsed ∧
      ∀ options, ParsesBack
        (fun body exporter obsDomain now => Ipfix.parseTemplates body exporter obsDomain now options)
        (Ipfix.WireTemplate.encode options) (Ipfix.WireTemplate.parsed options) :=
  ⟨TemplateSyntax.parsesBack V9.WireTemplate.writes le_rfl,
    TemplateSyntax.parsesBack V9.WireOptionsTemplate.writes (by decide),
    fun options => TemplateSyntax.parsesBack (Ipfix.WireTemplate.writes options) le_rfl⟩

/-- Two v9 templates, cut inside the second and whole before three bytes of padding. -/
theorem parseTemplates_parsesBack_cut :
    let records : List V9.WireTemplate :=
      [⟨256, [(8, 4)], by decide, by decide⟩, ⟨257, [(12, 4)], by decide, by decide⟩]
    V9.parseTemplates ((records.flatMap V9.WireTemplate.encode).take 13) "10.0.0.1" 7 0 .new =
        learnDefs "10.0.0.1" 7 0 [⟨256, .data, [fieldSpec 0 8 4], 0⟩] .new ∧
      V9.parseTemplates (records.flatMap V9.WireTemplate.encode ++ List.replicate 3 0) "10.0.0.1" 7 0 .new =
        learnDefs "10.0.0.1" 7 0 (records.map V9.WireTemplate.parsed) .new := by
  intro records
  have hback := parseTemplates_parsesBack.1 records "10.0.0.1" 7 0 .new
  exact ⟨hback.1 13, hback.2 3 le_rfl⟩

end Sets

end Netflow
