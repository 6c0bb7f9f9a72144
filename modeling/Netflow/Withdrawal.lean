import Netflow.TemplateCodec

/-!
# Withdrawals in IPFIX template Sets

A withdrawal is a record of four bytes with a field count of zero. The template loop takes
it for padding and ends there. So a Set teaches the templates before its first withdrawal,
and these are all of its templates exactly if its withdrawals stand at its end.
-/

namespace Netflow.Ipfix

/-- A record of a template Set: a template, or the withdrawal of one. -/
inductive SetRecord
  | template (t : WireTemplate)
  | withdrawal (templateId : UInt16) (templateId_ne_zero : templateId ≠ 0)

/-- The bytes of a record. A withdrawal is an id and a field count of zero, in Options Template Sets too. -/
def SetRecord.encode (options : Bool) : SetRecord → Bytes
  | .template t => t.encode options
  | .withdrawal templateId _ => beBytes 2 templateId.toNat ++ beBytes 2 0

/-- Whether a record is a template. -/
def SetRecord.isTemplate : SetRecord → Bool
  | .template _ => true
  | .withdrawal _ _ => false

/-- The template of a record, if it is one. -/
def SetRecord.template? : SetRecord → Option WireTemplate
  | .template t => some t
  | .withdrawal _ _ => none

/-- The body of a Set of some records. -/
def encodeRecords (options : Bool) (records : List SetRecord) : Bytes := records.flatMap (SetRecord.encode options)

/-- The templates before the first withdrawal. -/
def leading : List SetRecord → List WireTemplate
  | .template t :: records => t :: leading records
  | _ => []

/-- A (possibly Options) Template Set. -/
def templateSet (options : Bool) (body : Bytes) : FlowSet := ⟨if options then 3 else 2, body⟩

/-- Where a Set goes on with a withdrawal, nothing is read. -/
theorem read_withdrawal (options : Bool) (templateId : UInt16) (rest : Bytes) :
    (templateSyntax options).read (beBytes 2 templateId.toNat ++ beBytes 2 0 ++ rest) = none := by
  have hzero : (Cursor.mk (beBytes 2 0 ++ rest)).u16 = some (0, ⟨rest⟩) := u16_beBytes 0 rest
  rw [TemplateSyntax.read, Option.map_eq_none_iff]
  change parseTemplate options _ = none
  simp only [parseTemplate, List.append_assoc, u16_beBytes, hzero, Option.bind_eq_bind, Option.bind_some, or_true,
    if_true]

/-- A Set is its leading templates and, if it has a withdrawal, a rest of which nothing is read. -/
theorem exists_encodeRecords_eq (options : Bool) (records : List SetRecord) :
    ∃ rest, encodeRecords options records = (leading records).flatMap (WireTemplate.encode options) ++ rest ∧
      (rest.length < (templateSyntax options).minLen ∨ (templateSyntax options).read rest = none) := by
  induction records with
  | nil => exact ⟨[], rfl, .inl (show 0 < 4 by decide)⟩
  | cons record records ih =>
    cases record with
    | template t =>
      obtain ⟨rest, heq, hrest⟩ := ih
      refine ⟨rest, ?_, hrest⟩
      rw [leading, List.flatMap_cons, List.append_assoc, ← heq]
      rfl
    | withdrawal templateId hid =>
      exact ⟨_, rfl, .inr (read_withdrawal options templateId (encodeRecords options records))⟩

/-- A Set teaches its leading templates. -/
theorem setDefs_encodeRecords (options : Bool) (records : List SetRecord) :
    format.setDefs (templateSet options (encodeRecords options records)) =
      (leading records).map (WireTemplate.parsed options) := by
  obtain ⟨rest, heq, hrest⟩ := exists_encodeRecords_eq options records
  have hsyntax : format.templates (templateSet options (encodeRecords options records)).id =
      some (templateSyntax options) := by
    cases options <;> rfl
  rw [TemplatedFormat.setDefs, hsyntax]
  refine (templateDefs_eq_scan (templateSyntax options) _ _).trans ?_
  rw [templateSet, heq]
  exact (WireTemplate.writes options).scan_append (leading records) hrest le_rfl

/-- The leading templates are all exactly if no template follows a withdrawal. -/
theorem leading_eq_iff (records : List SetRecord) :
    leading records = records.filterMap SetRecord.template? ↔
      records.Pairwise fun a b => b.isTemplate → a.isTemplate := by
  induction records with
  | nil => simp [leading]
  | cons record records ih =>
    cases record with
    | template t => simp [leading, SetRecord.template?, SetRecord.isTemplate, ih]
    | withdrawal templateId hid =>
      have hnone : (∀ r ∈ records, r.template? = none) ↔ ∀ r ∈ records, ¬ r.isTemplate := by
        apply forall₂_congr
        intro r _
        cases r <;> simp [SetRecord.template?, SetRecord.isTemplate]
      have hleading : leading (.withdrawal templateId hid :: records) = [] := rfl
      have hnot : (SetRecord.withdrawal templateId hid).isTemplate = false := rfl
      rw [hleading, eq_comm, List.filterMap_cons_none rfl, List.filterMap_eq_nil_iff, hnone, List.pairwise_cons]
      constructor
      · intro h
        refine ⟨fun r hr htemplate => absurd htemplate (h r hr), ?_⟩
        exact List.pairwise_of_forall_mem_list fun a ha b hb htemplate => absurd htemplate (h b hb)
      · intro h r hr htemplate
        have hhead := h.1 r hr htemplate
        rw [hnot] at hhead
        contradiction

/-- Without its withdrawals a Set teaches all its templates. -/
theorem setDefs_filter_isTemplate (options : Bool) (records : List SetRecord) :
    format.setDefs (templateSet options (encodeRecords options (records.filter SetRecord.isTemplate))) =
      (records.filterMap SetRecord.template?).map (WireTemplate.parsed options) := by
  have hall : leading (records.filter SetRecord.isTemplate) =
      (records.filter SetRecord.isTemplate).filterMap SetRecord.template? := by
    rw [leading_eq_iff]
    exact List.pairwise_of_forall_mem_list fun a ha _ _ _ => (List.mem_filter.mp ha).2
  have htemplates : (records.filter SetRecord.isTemplate).filterMap SetRecord.template? =
      records.filterMap SetRecord.template? := by
    rw [List.filterMap_filter]
    congr 1
    funext r
    cases r <;> rfl
  rw [setDefs_encodeRecords, hall, htemplates]

/-- Leading templates are among all of them, so none is missing where none is learned less. -/
theorem leading_isPrefix (records : List SetRecord) : leading records <+: records.filterMap SetRecord.template? := by
  induction records with
  | nil => exact List.prefix_rfl
  | cons record records ih =>
    cases record with
    | template t => exact (List.prefix_cons_inj t).mpr ih
    | withdrawal templateId hid => exact List.nil_prefix

/-- The parser of (possibly Options) Template Sets upserts the definitions of a Set in order. Without its
withdrawals these are all templates of the Set with their layouts, and with them they are the same exactly if
no template follows a withdrawal. -/
theorem parseTemplates_withdrawals_iff (options : Bool) (records : List SetRecord) :
    let body := encodeRecords options records
    let templates := encodeRecords options (records.filter SetRecord.isTemplate)
    (∀ (set : Bytes) (exporter : String) (obsDomain : UInt32) (now : Int64) (cache : TemplateCache),
      parseTemplates set exporter obsDomain now options cache =
        learnDefs exporter obsDomain now (format.setDefs (templateSet options set)) cache) ∧
    format.setDefs (templateSet options templates) =
      (records.filterMap SetRecord.template?).map (WireTemplate.parsed options) ∧
    (format.setDefs (templateSet options body) = format.setDefs (templateSet options templates) ↔
      records.Pairwise fun a b => b.isTemplate → a.isTemplate) := by
  intro body templates
  refine ⟨?_, setDefs_filter_isTemplate options records, ?_⟩
  · intro set exporter obsDomain now cache
    rw [parseTemplates, parseTemplateSet, learnTemplates_eq]
    cases options <;> rfl
  · rw [← leading_eq_iff, setDefs_filter_isTemplate, setDefs_encodeRecords]
    constructor
    · intro h
      have hlength := congrArg List.length h
      rw [List.length_map, List.length_map] at hlength
      exact (leading_isPrefix records).eq_of_length hlength
    · intro h
      rw [h]

/-- A template after a withdrawal is not always learned. -/
theorem not_forall_learned :
    ¬ ∀ (options : Bool) (records : List SetRecord) (exporter : String) (obsDomain : UInt32) (now : Int64)
        (cache : TemplateCache),
      parseTemplates (encodeRecords options records) exporter obsDomain now options cache =
        parseTemplates (encodeRecords options (records.filter SetRecord.isTemplate)) exporter obsDomain now options
          cache := by
  intro h
  have hsame := congrArg (fun cache : TemplateCache => cache.entries.size)
    (h false [.withdrawal 300 (by decide),
      .template ⟨256, 0, [.standard 8 4 (by decide)], by decide, by decide, by decide⟩] "10.0.0.1" 7 0 .new)
  revert hsame
  decide +kernel

end Netflow.Ipfix
