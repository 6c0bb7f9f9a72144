import Netflow.Common.Elision
import Netflow.InetOrder
import Netflow.Provenance

/-!
# Agents

Without a label the rows of an sFlow datagram name the address of its agent as their exporter, in dotted decimal or
in the canonical hexadecimal form. Two agents never share such a name.
-/

namespace Netflow

open Elision (Readable plain shortened IsRun)

section ZeroRuns

/-- Whether all groups of a run are zero. -/
def ZeroRun (run : ℕ × ℕ) (groups : List ℕ) : Prop := ∀ i, run.1 ≤ i → i < run.1 + run.2 → groups[i]? = some 0

/-- One step of the search for the longest zero run: the longest so far, and the one that ends here. -/
def zeroRunStep (state : (ℕ × ℕ) × (ℕ × ℕ)) (indexed : ℕ × ℕ) : (ℕ × ℕ) × (ℕ × ℕ) :=
  if indexed.1 = 0 then
    let current := (if state.2.2 = 0 then indexed.2 else state.2.1, state.2.2 + 1)
    (if current.2 > state.1.2 then current else state.1, current)
  else (state.1, (0, 0))

/-- What is known when some groups are searched. -/
structure Searched (groups : List ℕ) (state : (ℕ × ℕ) × (ℕ × ℕ)) : Prop where
  longest : ZeroRun state.1 groups
  current : ZeroRun state.2 groups
  ends : state.2.2 ≠ 0 → state.2.1 + state.2.2 = groups.length

/-- A zero run is one in more groups as well. -/
theorem ZeroRun.append {run : ℕ × ℕ} {groups : List ℕ} (h : ZeroRun run groups) (more : List ℕ) :
    ZeroRun run (groups ++ more) := by
  intro i hge hlt
  have hzero := h i hge hlt
  obtain ⟨hin, -⟩ := List.getElem?_eq_some_iff.mp hzero
  rwa [List.getElem?_append_left hin]

/-- A step of the search. -/
theorem Searched.step {groups : List ℕ} {state : (ℕ × ℕ) × (ℕ × ℕ)} (h : Searched groups state) (group : ℕ) :
    Searched (groups ++ [group]) (zeroRunStep state (group, groups.length)) := by
  unfold zeroRunStep
  split
  · rename_i hzero
    have hcurrent : ZeroRun (if state.2.2 = 0 then groups.length else state.2.1, state.2.2 + 1)
        (groups ++ [group]) := by
      intro i hge hlt
      dsimp only at hge hlt hzero
      by_cases hlast : i = groups.length
      · rw [hlast, List.getElem?_concat_length, hzero]
      · by_cases hnone : state.2.2 = 0
        · rw [if_pos hnone] at hge hlt
          omega
        · have hends := h.ends hnone
          rw [if_neg hnone] at hge hlt
          exact h.current.append [group] i hge (by omega)
    refine ⟨?_, hcurrent, fun _ => ?_⟩
    · dsimp only
      split
      · exact hcurrent
      · exact h.longest.append [group]
    · dsimp only
      rw [List.length_append, List.length_singleton]
      split
      · omega
      · have hends := h.ends ‹_›
        omega
  · exact ⟨h.longest.append [group], fun i hge hlt => absurd hlt (by simp), fun hne => absurd rfl hne⟩

/-- The search, group by group. -/
theorem Searched.foldl {groups : List ℕ} {state : (ℕ × ℕ) × (ℕ × ℕ)} (h : Searched groups state) (more : List ℕ) :
    Searched (groups ++ more) ((more.zipIdx groups.length).foldl zeroRunStep state) := by
  induction more generalizing groups state with
  | nil => rwa [List.append_nil]
  | cons group more ih =>
    have hstep := ih (h.step group)
    rw [List.append_assoc, List.singleton_append, List.length_append, List.length_singleton] at hstep
    rwa [List.zipIdx_cons, List.foldl_cons]

/-- A run of zero groups can be left out. -/
theorem ZeroRun.isRun {run : ℕ × ℕ} {groups : List ℕ} (h : ZeroRun run groups) : IsRun 0 run groups := by
  rcases Nat.eq_zero_or_pos run.2 with hnone | hsome
  · rw [IsRun, hnone, Nat.add_zero, List.replicate_zero, List.append_nil, List.take_append_drop]
  · obtain ⟨hlength, -⟩ := List.getElem?_eq_some_iff.mp (h (run.1 + run.2 - 1) (by omega) (by omega))
    have hzeros : (groups.drop run.1).take run.2 = List.replicate run.2 0 := by
      refine List.ext_getElem? fun i => ?_
      rw [List.getElem?_take, List.getElem?_replicate]
      split
      · rw [List.getElem?_drop, h (run.1 + i) (by omega) (by omega)]
      · rfl
    rw [IsRun, ← hzeros, ← List.drop_drop, List.append_assoc, List.take_append_drop, List.take_append_drop]

/-- What the search finds is a run of zero groups. -/
theorem isRun_longestZeroRun (groups : List ℕ) : IsRun 0 (longestZeroRun groups) groups := by
  have hstart : Searched [] ((0, 0), (0, 0)) := by
    refine ⟨?_, ?_, fun hne => absurd rfl hne⟩ <;> exact fun i _ hlt => absurd hlt (Nat.not_lt_zero i)
  exact (hstart.foldl groups).longest.isRun

end ZeroRuns

section Text

variable {a b : Bytes} {text : String}

/-- The decimal digits of a byte. -/
def byteDigits (byte : UInt8) : List Char := Nat.toDigits 10 byte.toNat

/-- Neither separator is a digit. -/
theorem digitChar_ne_sep {d : ℕ} (h : d < 16) : Nat.digitChar d ≠ '.' ∧ Nat.digitChar d ≠ ':' := by
  have hall : ∀ d < 16, Nat.digitChar d ≠ '.' ∧ Nat.digitChar d ≠ ':' := by decide
  exact hall d h

/-- Neither separator stands in a number. -/
theorem sep_notMem_toDigits {base : ℕ} (hbase : 1 < base) (hmax : base ≤ 16) (n : ℕ) :
    '.' ∉ Nat.toDigits base n ∧ ':' ∉ Nat.toDigits base n := by
  constructor <;> intro h <;> obtain ⟨d, hd, heq⟩ := Elision.exists_of_mem_toDigits hbase h
  · exact (digitChar_ne_sep (by omega)).1 heq.symm
  · exact (digitChar_ne_sep (by omega)).2 heq.symm

/-- Dotted bytes can be read. -/
theorem readable_byteDigits : Readable '.' byteDigits where
  injective _ _ h := UInt8.toNat_inj.mp (Elision.toDigits_injective (by decide) (by decide) h)
  ne_nil _ := Nat.toDigits_ne_nil
  sep_notMem byte := (sep_notMem_toDigits (by decide) (by decide) byte.toNat).1

/-- Hexadecimal groups can be read. -/
theorem readable_hexDigits : Readable ':' (Nat.toDigits 16) where
  injective := Elision.toDigits_injective (by decide) le_rfl
  ne_nil _ := Nat.toDigits_ne_nil
  sep_notMem n := (sep_notMem_toDigits (by decide) le_rfl n).2

/-- The text of four bytes. -/
theorem toList_ipv4Text (h : ipv4Text b = some text) : text.toList = plain '.' byteDigits b := by
  unfold ipv4Text at h
  split at h
  · rw [← Option.some.inj h, String.toList_intercalate, List.map_map]
    congr 1
    refine List.map_congr_left fun byte _ => ?_
    rw [Function.comp_apply, Nat.toString_eq_ofList_toDigits, String.toList_ofList]
    rfl
  · contradiction

/-- The groups of sixteen bytes are half as many. -/
theorem length_ipv6Segments (n : ℕ) (h : b.length = 2 * n) : (ipv6Segments b).length = n := by
  induction n generalizing b with
  | zero => rw [List.length_eq_zero_iff.mp h]; rfl
  | succ n ih =>
    rcases b with _ | ⟨hi, _ | ⟨lo, rest⟩⟩
    · contradiction
    · simp at h
      omega
    · rw [ipv6Segments, List.length_cons, ih (by simp at h; omega)]

/-- Bytes are determined by the groups they make. -/
theorem ipv6Segments_inj (n : ℕ) (ha : a.length = 2 * n) (hb : b.length = 2 * n)
    (h : ipv6Segments a = ipv6Segments b) : a = b := by
  induction n generalizing a b with
  | zero => rw [List.length_eq_zero_iff.mp ha, List.length_eq_zero_iff.mp hb]
  | succ n ih =>
    rcases a with _ | ⟨hi, _ | ⟨lo, rest⟩⟩
    · contradiction
    · simp at ha
      omega
    · rcases b with _ | ⟨hi', _ | ⟨lo', rest'⟩⟩
      · contradiction
      · simp at hb
        omega
      · obtain ⟨hgroup, hrest⟩ := List.cons.inj h
        have hhi := hi.toNat_lt
        have hlo := lo.toNat_lt
        have hhi' := hi'.toNat_lt
        have hlo' := lo'.toNat_lt
        rw [UInt8.toNat_inj.mp (show hi.toNat = hi'.toNat by omega),
          UInt8.toNat_inj.mp (show lo.toNat = lo'.toNat by omega),
          ih (by simp at ha; omega) (by simp at hb; omega) hrest]

/-- The groups from some place on are those of the bytes from twice that place on. -/
theorem drop_ipv6Segments (n : ℕ) (b : Bytes) : (ipv6Segments b).drop n = ipv6Segments (b.drop (2 * n)) := by
  induction n generalizing b with
  | zero => rfl
  | succ n ih =>
    rcases b with _ | ⟨hi, _ | ⟨lo, rest⟩⟩
    · rfl
    · rw [show 2 * (n + 1) = 2 * n + 1 + 1 by omega, List.drop_succ_cons, List.drop_nil]
      rfl
    · rw [show 2 * (n + 1) = 2 * n + 1 + 1 by omega, List.drop_succ_cons, List.drop_succ_cons, ← ih]
      rfl

/-- The form of an address that stands for one of four bytes. -/
def IsMapped (b : Bytes) : Prop := (ipv6Segments b).take 6 = [0, 0, 0, 0, 0, 0xffff]

/-- The text of sixteen bytes that stand for four: these, behind a fixed text. -/
theorem toList_ipv6Text_of_isMapped (h : ipv6Text b = some text) (hmapped : IsMapped b) :
    text.toList = "::ffff:".toList ++ plain '.' byteDigits (b.drop 12) := by
  unfold ipv6Text at h
  split at h
  · contradiction
  · rw [if_pos (show (ipv6Segments b).take 6 = [0, 0, 0, 0, 0, 0xffff] from hmapped)] at h
    obtain ⟨dotted, hdotted, rfl⟩ := Option.map_eq_some_iff.mp h
    rw [String.toList_append, toList_ipv4Text hdotted]

/-- The text of sixteen bytes that stand for themselves: eight groups, with the longest run of zeros left out. -/
theorem toList_ipv6Text_of_not_isMapped (h : ipv6Text b = some text) (hmapped : ¬ IsMapped b) :
    text.toList =
      shortened ':' (Nat.toDigits 16) (longestZeroRun (ipv6Segments b)) (ipv6Segments b) := by
  have hgroups : ∀ segments, (groupsText segments).toList = plain ':' (Nat.toDigits 16) segments := by
    intro segments
    rw [groupsText, String.toList_intercalate, List.map_map]
    congr 1
    exact List.map_congr_left fun segment _ => String.toList_ofList
  unfold ipv6Text at h
  split at h
  · contradiction
  · rw [if_neg (show ¬ (ipv6Segments b).take 6 = [0, 0, 0, 0, 0, 0xffff] from hmapped)] at h
    dsimp only at h
    unfold shortened
    split at h
    · rename_i hlong
      rw [if_pos hlong, ← Option.some.inj h, String.toList_append, String.toList_append, hgroups, hgroups]
      rfl
    · rename_i hshort
      rw [if_neg hshort, ← Option.some.inj h, hgroups]

/-- Sixteen bytes have the text of no other. -/
theorem ipv6Text_inj (ha : a.length = 16) (hb : b.length = 16) (hta : ipv6Text a = some text)
    (htb : ipv6Text b = some text) : a = b := by
  have hla := length_ipv6Segments 8 ha
  have hlb := length_ipv6Segments 8 hb
  -- Only the form that stands for four bytes has dots.
  have hdots : ∀ {b : Bytes}, b.length = 16 → ipv6Text b = some text → ('.' ∈ text.toList ↔ IsMapped b) := by
    intro b hb ht
    by_cases hmapped : IsMapped b
    · rw [toList_ipv6Text_of_isMapped ht hmapped]
      exact iff_of_true (List.mem_append_right _ (Elision.sep_mem_plain (by rw [List.length_drop, hb]; decide))) hmapped
    · rw [toList_ipv6Text_of_not_isMapped ht hmapped]
      refine iff_of_false (fun hmem => ?_) hmapped
      rcases Elision.of_mem_shortened hmem with hsep | ⟨group, -, hdigit⟩
      · exact absurd hsep (by decide)
      · exact (sep_notMem_toDigits (by decide) le_rfl group).1 hdigit
  by_cases hmapped : IsMapped a
  · have hmapped' : IsMapped b := (hdots hb htb).mp ((hdots ha hta).mpr hmapped)
    have htexts := (toList_ipv6Text_of_isMapped hta hmapped).symm.trans (toList_ipv6Text_of_isMapped htb hmapped')
    have hfour : a.drop 12 = b.drop 12 :=
      readable_byteDigits.plain_inj (List.ne_nil_of_length_pos (by rw [List.length_drop, ha]; decide))
        (List.ne_nil_of_length_pos (by rw [List.length_drop, hb]; decide)) (List.append_cancel_left htexts)
    refine ipv6Segments_inj 8 ha hb ?_
    rw [← List.take_append_drop 6 (ipv6Segments a), ← List.take_append_drop 6 (ipv6Segments b),
      show (ipv6Segments a).take 6 = _ from hmapped, show (ipv6Segments b).take 6 = _ from hmapped',
      drop_ipv6Segments, drop_ipv6Segments, hfour]
  · have hmapped' : ¬ IsMapped b := fun hm => hmapped ((hdots ha hta).mp ((hdots hb htb).mpr hm))
    have htexts := (toList_ipv6Text_of_not_isMapped hta hmapped).symm.trans
      (toList_ipv6Text_of_not_isMapped htb hmapped')
    exact ipv6Segments_inj 8 ha hb (readable_hexDigits.shortened_inj
      (List.ne_nil_of_length_pos (by rw [hla]; decide)) (hla.trans hlb.symm) (isRun_longestZeroRun _)
      (isRun_longestZeroRun _) htexts)

/-- The text of an address of either family. -/
def addressText (b : Bytes) : Option String := if b.length = 4 then ipv4Text b else ipv6Text b

/-- An address of either family has a text. -/
theorem isSome_addressText (h : b.length = 4 ∨ b.length = 16) : (addressText b).isSome := by
  unfold addressText
  split
  · rename_i hfour
    rw [ipv4Text, if_pos hfour]
    rfl
  · rename_i hfour
    obtain ⟨text, htext⟩ := exists_ipv6Text (h.resolve_left hfour)
    rw [htext]
    rfl

/-- An address of either family has the text of no other of both. -/
theorem addressText_inj (ha : a.length = 4 ∨ a.length = 16) (hb : b.length = 4 ∨ b.length = 16)
    (h : addressText a = addressText b) : a = b := by
  obtain ⟨text, hta⟩ := Option.isSome_iff_exists.mp (isSome_addressText ha)
  have htb := h.symm.trans hta
  unfold addressText at hta htb
  -- Colons tell the families apart.
  have hfour : ∀ {b : Bytes}, ipv4Text b = some text → ':' ∉ text.toList := by
    intro b ht hmem
    rw [toList_ipv4Text ht] at hmem
    rcases Elision.of_mem_plain hmem with hsep | ⟨byte, -, hdigit⟩
    · exact absurd hsep (by decide)
    · exact (sep_notMem_toDigits (by decide) (by decide) byte.toNat).2 hdigit
  have hsixteen : ∀ {b : Bytes}, b.length = 16 → ipv6Text b = some text → ':' ∈ text.toList := by
    intro b hb ht
    by_cases hmapped : IsMapped b
    · rw [toList_ipv6Text_of_isMapped ht hmapped]
      exact List.mem_append_left _ (by decide)
    · rw [toList_ipv6Text_of_not_isMapped ht hmapped]
      exact Elision.sep_mem_shortened (by rw [length_ipv6Segments 8 hb]; decide)
  by_cases hlength : a.length = 4 <;> by_cases hlength' : b.length = 4
  · rw [if_pos hlength] at hta
    rw [if_pos hlength'] at htb
    exact readable_byteDigits.plain_inj (List.ne_nil_of_length_pos (by omega))
      (List.ne_nil_of_length_pos (by omega)) ((toList_ipv4Text hta).symm.trans (toList_ipv4Text htb))
  · rw [if_pos hlength] at hta
    rw [if_neg hlength'] at htb
    exact absurd (hsixteen (hb.resolve_left hlength') htb) (hfour hta)
  · rw [if_neg hlength] at hta
    rw [if_pos hlength'] at htb
    exact absurd (hsixteen (ha.resolve_left hlength) hta) (hfour htb)
  · rw [if_neg hlength] at hta
    rw [if_neg hlength'] at htb
    exact ipv6Text_inj (ha.resolve_left hlength) (hb.resolve_left hlength') hta htb

end Text

namespace Sflow

variable {data data' : Bytes}

/-- The address of the agent of a datagram. -/
def agentAddress (data : Bytes) : Bytes := (data.drop 8).take (agentLength data)

/-- A well-formed datagram has a whole header. -/
theorem whole_of_ok (h : probeVersion data = some .sflow5) (hok : (wellFormed data).ok) :
    24 + agentLength data ≤ data.length := by
  have hvalid : wellFormed data = validateSflow data := by rw [wellFormed, h]
  rwa [hvalid, validateSflow_of_probe h, isSome_behindAgent_iff (of_probeVersion_sflow h).1] at hok

/-- A whole header has an address of one of the families. -/
theorem length_agentAddress (hwhole : 24 + agentLength data ≤ data.length) :
    (agentAddress data).length = 4 ∨ (agentAddress data).length = 16 := by
  have hfamily : agentLength data = 4 ∨ agentLength data = 16 := by
    unfold agentLength
    split
    · exact .inl rfl
    · exact .inr rfl
  rw [agentAddress, List.length_take, List.length_drop]
  omega

/-- The agent of a whole header is the text of its address. -/
theorem agent_of_readHeader (h : probeVersion data = some .sflow5) (hwhole : 24 + agentLength data ≤ data.length)
    {hdr : Header} {c : Cursor} (hread : readHeader data = some (hdr, c)) :
    hdr.agent = addressText (agentAddress data) := by
  obtain ⟨hversion, addrType, haddr, htype⟩ := words_of_probeVersion_sflow h
  have htwo : (2 : UInt32) ≠ 1 := by decide
  rcases htype with ⟨rfl, hagent⟩ | ⟨rfl, hagent⟩
  · have htake := @attempt_take_drop data 8 4 (by omega)
    simp only [readHeader, hversion, haddr, htake, Option.bind_eq_bind, Option.bind_some, if_true, ne_eq,
      not_true_eq_false, if_false, Option.bind_eq_some_iff] at hread
    obtain ⟨_, -, _, -, _, -, _, -, hread⟩ := hread
    rw [← (Prod.mk.inj (Option.some.inj hread)).1, agentAddress, hagent]
    exact (if_pos (by rw [List.length_take, List.length_drop]; omega)).symm
  · have htake := @attempt_take_drop data 8 16 (by omega)
    simp only [readHeader, hversion, haddr, htake, Option.bind_eq_bind, Option.bind_some, if_true, ne_eq,
      not_true_eq_false, htwo, if_false, Option.bind_eq_some_iff] at hread
    obtain ⟨_, -, _, -, _, -, _, -, hread⟩ := hread
    rw [← (Prod.mk.inj (Option.some.inj hread)).1, agentAddress, hagent]
    exact (if_neg (by rw [List.length_take, List.length_drop]; omega)).symm

/-- Without a label, the rows of a datagram with a whole header name the text of the address of its agent. -/
theorem exporter_of_mem_decode (h : probeVersion data = some .sflow5) (hok : (wellFormed data).ok) {flowsOnly : Bool}
    {row : FlowRecord} (hrow : row ∈ decode data "" flowsOnly) :
    ∃ text, addressText (agentAddress data) = some text ∧ row.exporter = text := by
  have hwhole := whole_of_ok h hok
  obtain ⟨words, hwords⟩ := Option.isSome_iff_exists.mp
    ((isSome_behindAgent_iff (of_probeVersion_sflow h).1).mpr hwhole)
  obtain ⟨agent, hread⟩ := readHeader_of_probe h
  rw [hwords] at hread
  have hagent := agent_of_readHeader h hwhole hread
  obtain ⟨text, htext⟩ := Option.isSome_iff_exists.mp (isSome_addressText (length_agentAddress hwhole))
  rw [decode_eq_trace, trace, hread] at hrow
  obtain ⟨e, he, hrow⟩ := List.mem_flatMap.mp hrow
  obtain ⟨own, hown, hheading⟩ := heading_of_mem_samplesTrace he
  have hexporter := congrArg Heading.exporter ((Emission.headed_row hown _ row hrow).trans hheading)
  refine ⟨text, htext, hexporter.trans ?_⟩
  change exporterId "" ⟨agent, _, _, _⟩ = text
  rw [exporterId, if_pos (show "".isEmpty = true from rfl), hagent, htext, Option.getD_some]

/-- Agents are told apart by the exporter that the rows of their datagrams name. Where no label is given, the rows of
two datagrams with whole headers name the same exporter exactly if both are from the same address of the same
family. -/
theorem exporter_eq_iff (h : probeVersion data = some .sflow5) (h' : probeVersion data' = some .sflow5)
    (hok : (wellFormed data).ok) (hok' : (wellFormed data').ok) {flowsOnly flowsOnly' : Bool} {row row' : FlowRecord}
    (hrow : row ∈ decode data "" flowsOnly) (hrow' : row' ∈ decode data' "" flowsOnly') :
    row.exporter = row'.exporter ↔ agentAddress data = agentAddress data' := by
  obtain ⟨text, htext, hexporter⟩ := exporter_of_mem_decode h hok hrow
  obtain ⟨text', htext', hexporter'⟩ := exporter_of_mem_decode h' hok' hrow'
  rw [hexporter, hexporter']
  constructor
  · rintro rfl
    exact addressText_inj (length_agentAddress (whole_of_ok h hok)) (length_agentAddress (whole_of_ok h' hok'))
      (htext.trans htext'.symm)
  · intro haddress
    exact Option.some.inj (htext.symm.trans ((congrArg addressText haddress).trans htext'))

/-- The sample datagram as of an agent that has the same address in its mapped IPv6 form. -/
def sampleMapped : Bytes :=
  [0, 0, 0, 5, 0, 0, 0, 2] ++ List.replicate 10 0 ++ [255, 255, 10, 0, 0, 1] ++ sampleSflow.drop 12

/-- An IPv4 agent and the agent with its mapped address have different names. -/
theorem exporter_eq_iff_mapped :
    ∃ row ∈ decode sampleSflow "" false, ∃ row' ∈ decode sampleMapped "" false,
      (row.exporter = row'.exporter ↔ agentAddress sampleSflow = agentAddress sampleMapped) := by
  have hne : decode sampleSflow "" false ≠ [] := by decide +kernel
  have hne' : decode sampleMapped "" false ≠ [] := by decide +kernel
  obtain ⟨row, hrow⟩ := List.exists_mem_of_ne_nil _ hne
  obtain ⟨row', hrow'⟩ := List.exists_mem_of_ne_nil _ hne'
  exact ⟨row, hrow, row', hrow', exporter_eq_iff (by decide) (by decide) (by decide) (by decide) hrow hrow'⟩

end Sflow

end Netflow
