import Netflow.Decode.Sflow

/-!
# Where a sampled header is read

The parser of a sampled frame carries on after a read that fails: it takes a default, and the cursor stays
where it was. So what it reads, and from where, depends on how many bytes were captured. Here each value is
told by the place it comes from, a missing byte or word counting as zero.
-/

namespace Netflow.Sflow

section Definitions

/-- The byte at an offset, or zero if it is not there. -/
def byteAt (data : Bytes) (offset : ℕ) : UInt8 := data.getD offset 0

/-- The 16-bit word at an offset, or zero if it is not all there. -/
def wordAt (data : Bytes) (offset : ℕ) : UInt16 :=
  if offset + 2 ≤ data.length then .ofNat (field data offset 2) else 0

/-- Where a read leaves the cursor: behind the bytes, or where it was if they are not all there. -/
def after (length pos n : ℕ) : ℕ := if pos + n ≤ length then pos + n else pos

/-- Where a run of reads leaves the cursor. -/
def afterAll (length pos : ℕ) (reads : List ℕ) : ℕ := reads.foldl (after length) pos

/-- Where the ethertype of a frame stands, behind a tag if there is one. -/
def ethertypeAt (frame : Bytes) : ℕ := if wordAt frame 12 = 0x8100 then 16 else 12

/-- The ethertype of a frame. -/
def ethertype (frame : Bytes) : UInt16 := wordAt frame (ethertypeAt frame)

/-- What follows the Ethernet header of a frame. -/
def network (frame : Bytes) : Bytes := frame.drop (ethertypeAt frame + 2)

/-- The length of an IPv4 header with its options, no less than the fixed part. -/
def headerLength (packet : Bytes) : ℕ := max 20 ((byteAt packet 0 &&& 0x0f).toNat * 4)

/-- Where the transport header of an IPv4 packet is looked for: behind the last part of the IPv4 header that
is all there, counting from the checksum on. -/
def ipv4TransportAt (packet : Bytes) : ℕ :=
  if packet.length < 12 then 10
  else if packet.length < 16 then 12
  else if packet.length < 20 then 16
  else if packet.length < headerLength packet then 20
  else headerLength packet

/-- Where the next header byte of an IPv6 packet is looked for. -/
def nextHeaderAt (packet : Bytes) : ℕ := if packet.length = 5 then 4 else 6

/-- Where the transport header of an IPv6 packet is looked for: behind the last address that is all there. -/
def ipv6TransportAt (packet : Bytes) : ℕ :=
  if packet.length < 24 then 8 else if packet.length < 40 then 24 else 40

/-- Where the flags of a TCP header are looked for: right behind the data offset, or behind the ports where
the two sequence numbers are not all there. -/
def flagsAt (segment : Bytes) : ℕ := if segment.length < 12 then 5 else 13

/-- Whether two rows show the same ports and flags. -/
structure SamePorts (row row' : FlowRecord) : Prop where
  srcPort : row.srcPort = row'.srcPort
  dstPort : row.dstPort = row'.dstPort
  tcpFlags : row.tcpFlags = row'.tcpFlags

/-- Whether two transport headers of a protocol agree wherever ports and flags are looked for. -/
def SameTransport (protocol : UInt8) (segment segment' : Bytes) : Prop :=
  (protocol = 6 ∨ protocol = 17 →
    wordAt segment 0 = wordAt segment' 0 ∧ wordAt segment 2 = wordAt segment' 2) ∧
  (protocol = 6 → byteAt segment (flagsAt segment) = byteAt segment' (flagsAt segment'))

end Definitions

section Reads

variable {data : Bytes} {pos : ℕ}

/-- A byte that is not there is zero. -/
theorem byteAt_of_le {offset : ℕ} (h : data.length ≤ offset) : byteAt data offset = 0 := by
  rw [byteAt, List.getD_eq_getElem?_getD, List.getElem?_eq_none h, Option.getD_none]

/-- A word that is not all there is zero. -/
theorem wordAt_of_lt {offset : ℕ} (h : data.length < offset + 2) : wordAt data offset = 0 := if_neg (by omega)

/-- A byte as a field of one byte. -/
theorem ofNat_field_one (h : pos + 1 ≤ data.length) : UInt8.ofNat (field data pos 1) = byteAt data pos := by
  have hone : (data.drop pos).take 1 = [data[pos]] := by
    rw [List.drop_eq_getElem_cons (by omega)]
    rfl
  rw [field, hone, byteAt, List.getD_eq_getElem?_getD, List.getElem?_eq_getElem (by omega), Option.getD_some]
  simp [beNat]

/-- An ignored 8-bit read. -/
theorem attempt_u8_at :
    (Cursor.mk (data.drop pos)).attempt (·.u8) =
      (if pos + 1 ≤ data.length then some (byteAt data pos) else none, ⟨data.drop (after data.length pos 1)⟩) := by
  rw [after]
  split
  · rw [attempt_u8_drop ‹_›, ofNat_field_one ‹_›]
  · have hnone : (Cursor.mk (data.drop pos)).u8 = none := by
      apply Cursor.u8_of_lt
      rw [Cursor.remaining, List.length_drop]
      omega
    rw [Cursor.attempt, hnone]

/-- An ignored 16-bit read. -/
theorem attempt_u16_at :
    (Cursor.mk (data.drop pos)).attempt (·.u16) =
      (if pos + 2 ≤ data.length then some (wordAt data pos) else none, ⟨data.drop (after data.length pos 2)⟩) := by
  rw [after]
  split
  · rw [attempt_u16_drop ‹_›, wordAt, if_pos ‹_›]
  · have hnone : (Cursor.mk (data.drop pos)).u16 = none := by
      apply Cursor.u16_of_lt
      rw [Cursor.remaining, List.length_drop]
      omega
    rw [Cursor.attempt, hnone]

/-- A take at a position. -/
theorem take_at {n : ℕ} (hn : 0 < n) :
    (Cursor.mk (data.drop pos)).take n =
      if pos + n ≤ data.length then some ((data.drop pos).take n, ⟨data.drop (pos + n)⟩) else none := by
  have hremaining : (Cursor.mk (data.drop pos)).remaining = data.length - pos := List.length_drop
  split
  · rw [Cursor.take_of_le (by omega), List.drop_drop]
  · exact Cursor.take_of_lt (by omega)

/-- An ignored take. -/
theorem attempt_take_at {n : ℕ} (hn : 0 < n) :
    (Cursor.mk (data.drop pos)).attempt (·.take n) =
      (if pos + n ≤ data.length then some ((data.drop pos).take n) else none,
        ⟨data.drop (after data.length pos n)⟩) := by
  rw [Cursor.attempt, take_at hn, after]
  by_cases h : pos + n ≤ data.length
  · simp only [h, if_true]
  · simp only [h, if_false]

/-- An ignored skip. -/
theorem skip_at {n : ℕ} (hn : 0 < n) :
    (Cursor.mk (data.drop pos)).skip n = (decide (pos + n ≤ data.length), ⟨data.drop (after data.length pos n)⟩) := by
  rw [Cursor.skip, take_at hn, after]
  by_cases h : pos + n ≤ data.length
  · simp only [h, if_true, decide_true]
  · simp only [h, if_false, decide_false]

/-- The default of an 8-bit read is the value of a missing byte. -/
@[simp] theorem getD_byteAt : (if pos + 1 ≤ data.length then some (byteAt data pos) else none).getD 0 =
    byteAt data pos := by
  split
  · rfl
  · exact (byteAt_of_le (by omega)).symm

/-- The default of a 16-bit read is the value of a missing word. -/
@[simp] theorem getD_wordAt : (if pos + 2 ≤ data.length then some (wordAt data pos) else none).getD 0 =
    wordAt data pos := by
  split
  · rfl
  · exact (wordAt_of_lt (by omega)).symm

end Reads

section Transport

/-- The flags of a TCP header are read where they are looked for. -/
theorem byteAt_flags (segment : Bytes) :
    byteAt segment (afterAll segment.length 0 [2, 2, 8, 1]) = byteAt segment (flagsAt segment) := by
  have hplace : afterAll segment.length 0 [2, 2, 8, 1] = flagsAt segment ∨
      segment.length ≤ afterAll segment.length 0 [2, 2, 8, 1] ∧ segment.length ≤ flagsAt segment := by
    simp only [afterAll, List.foldl_cons, List.foldl_nil, after, flagsAt]
    split_ifs <;> omega
  rcases hplace with heq | ⟨hread, hlooked⟩
  · rw [heq]
  · rw [byteAt_of_le hread, byteAt_of_le hlooked]

/-- The ports and flags that a transport header gives, by the places they are read from. -/
theorem parseL4_eq (segment : Bytes) (proto : UInt8) (row : FlowRecord) :
    parseL4 ⟨segment⟩ proto row =
      { row with
        srcPort := if proto = 6 ∨ proto = 17 then some (wordAt segment 0) else row.srcPort
        dstPort := if proto = 6 ∨ proto = 17 then some (wordAt segment 2) else row.dstPort
        tcpFlags := if proto = 6 then some (byteAt segment (flagsAt segment)) else row.tcpFlags } := by
  have hdst : wordAt segment (after segment.length 0 2) = wordAt segment 2 := by
    rw [after]
    split
    · rfl
    · rw [wordAt_of_lt (by omega), wordAt_of_lt (by omega)]
  have hstart : Cursor.mk segment = ⟨segment.drop 0⟩ := rfl
  rw [← byteAt_flags, ← hdst, hstart]
  unfold parseL4
  by_cases htcp : proto = 6
  · simp (disch := decide) only [htcp, attempt_u16_at, attempt_u8_at, skip_at, getD_wordAt, getD_byteAt, if_true,
      true_or]
    rfl
  · by_cases hudp : proto = 17
    · subst hudp
      simp only [htcp, attempt_u16_at, getD_wordAt, if_true, if_false, or_true]
    · simp only [htcp, hudp, if_false, or_self]

/-- Two transport headers are told apart by the places of their ports and flags, and by nothing else. -/
theorem samePorts_parseL4_iff (protocol : UInt8) (segment segment' : Bytes) {row row' : FlowRecord}
    (hrow : SamePorts row row') :
    SamePorts (parseL4 ⟨segment⟩ protocol row) (parseL4 ⟨segment'⟩ protocol row') ↔
      SameTransport protocol segment segment' := by
  rw [parseL4_eq, parseL4_eq]
  constructor
  · rintro ⟨hsrc, hdst, hflags⟩
    refine ⟨fun hports => ?_, fun htcp => ?_⟩
    · simp only [if_pos hports, Option.some_inj] at hsrc hdst
      exact ⟨hsrc, hdst⟩
    · simpa only [if_pos htcp, Option.some_inj] using hflags
  · rintro ⟨hports, hflags⟩
    refine ⟨?_, ?_, ?_⟩
    · exact ite_congr rfl (fun h => congrArg some (hports h).1) fun _ => hrow.srcPort
    · exact ite_congr rfl (fun h => congrArg some (hports h).2) fun _ => hrow.dstPort
    · exact ite_congr rfl (fun h => congrArg some (hflags h)) fun _ => hrow.tcpFlags

end Transport

section Addresses

variable {inet : Bytes → Option InetVal} {n pos : ℕ} {data : Bytes}

/-- Whether addresses of one length, and no other bytes, have a cell. -/
structure OfLength (inet : Bytes → Option InetVal) (n : ℕ) : Prop where
  pos : 0 < n
  eq_none : ∀ {bytes : Bytes}, bytes.length ≠ n → inet bytes = none

/-- IPv4 addresses. -/
theorem inet4_ofLength : OfLength inet4 4 := ⟨by decide, fun h => if_neg h⟩

/-- IPv6 addresses. -/
theorem inet6_ofLength : OfLength inet6 16 := ⟨by decide, fun h => if_neg h⟩

/-- An address that is cut short has no cell. -/
theorem OfLength.of_lt (hinet : OfLength inet n) (h : data.length < pos + n) :
    inet ((data.drop pos).take n) = none := by
  have hpos := hinet.pos
  apply hinet.eq_none
  rw [List.length_take, List.length_drop]
  omega

/-- The default of an address read is as good as the bytes that are left. -/
theorem OfLength.getD (hinet : OfLength inet n) (pos : ℕ) (data : Bytes) :
    inet ((if pos + n ≤ data.length then some ((data.drop pos).take n) else none).getD []) =
      inet ((data.drop pos).take n) := by
  split
  · rfl
  · rw [hinet.of_lt (by omega)]
    exact hinet.eq_none hinet.pos.ne

/-- It makes no difference which of two places an address is looked for in, where it is cut short in both. -/
theorem OfLength.ite (hinet : OfLength inet n) {c : Prop} [Decidable c] {pos' : ℕ}
    (hcut : c → data.length < pos' + n ∧ data.length < pos + n) :
    inet ((data.drop (if c then pos' else pos)).take n) = inet ((data.drop pos).take n) := by
  split
  next h => rw [hinet.of_lt (hcut h).1, hinet.of_lt (hcut h).2]
  next => rfl

end Addresses

section Network

/-- Where the reads of an IPv4 header leave the cursor: a header without its checksum is read to its end. -/
theorem ipv4_places {length : ℕ} (h : 2 ≤ length) :
    let proto := afterAll length 2 [2, 2, 2, 1]
    let src := afterAll length proto [1, 2]
    let dst := after length src 4
    let options := after length dst 4
    length < 10 ∧ proto = length ∧ src = length ∧ dst = length ∧ options = length ∨
      10 ≤ length ∧ proto = 9 ∧ src = (if length < 12 then 10 else 12) ∧
        dst = (if length < 12 then 10 else if length < 16 then 12 else 16) ∧
        options = if length < 12 then 10 else if length < 16 then 12 else if length < 20 then 16 else 20 := by
  intro proto src dst options
  by_cases hshort : length < 10
  · have hend : ∀ n, 0 < n → after length length n = length := fun n hn => if_neg (by omega)
    have hproto : proto = length := by
      simp only [proto, afterAll, List.foldl_cons, List.foldl_nil, after]
      split_ifs <;> omega
    have hsrc : src = length := by
      simp only [src, hproto, afterAll, List.foldl_cons, List.foldl_nil, hend 1, hend 2, Nat.zero_lt_succ]
    have hdst : dst = length := by simp only [dst, hsrc, hend 4, Nat.zero_lt_succ]
    have hoptions : options = length := by simp only [options, hdst, hend 4, Nat.zero_lt_succ]
    exact .inl ⟨hshort, hproto, hsrc, hdst, hoptions⟩
  · have hproto : proto = 9 := by
      simp only [proto, afterAll, List.foldl_cons, List.foldl_nil, after]
      split_ifs <;> omega
    have hsrc : src = if length < 12 then 10 else 12 := by
      simp only [src, hproto, afterAll, List.foldl_cons, List.foldl_nil, after]
      split_ifs <;> omega
    have hdst : dst = if length < 12 then 10 else if length < 16 then 12 else 16 := by
      simp only [dst, hsrc, after]
      split_ifs <;> omega
    have hoptions : options =
        if length < 12 then 10 else if length < 16 then 12 else if length < 20 then 16 else 20 := by
      simp only [options, hdst, after]
      split_ifs <;> omega
    exact .inr ⟨by omega, hproto, hsrc, hdst, hoptions⟩

/-- Options that are not all there are not skipped. -/
theorem skip_options (packet : Bytes) (pos : ℕ) :
    (if (byteAt packet 0 &&& 0x0f).toNat * 4 > 20 then
        ((Cursor.mk (packet.drop pos)).skip ((byteAt packet 0 &&& 0x0f).toNat * 4 - 20)).2
      else ⟨packet.drop pos⟩) =
      ⟨packet.drop (if pos + (headerLength packet - 20) ≤ packet.length then pos + (headerLength packet - 20)
        else pos)⟩ := by
  unfold headerLength
  generalize (byteAt packet 0 &&& 0x0f).toNat * 4 = ihl
  by_cases hoptions : ihl > 20
  · have hpos : 0 < ihl - 20 := by omega
    rw [if_pos hoptions, skip_at hpos, max_eq_right (by omega), after]
  · rw [if_neg hoptions, max_eq_left (by omega), Nat.sub_self, Nat.add_zero, ite_self]

/-- What an IPv4 header gives, by the places it is read from. -/
theorem parseIpv4_eq {packet : Bytes} (h : 2 ≤ packet.length) (row : FlowRecord) :
    parseIpv4 ⟨packet⟩ row = parseL4 ⟨packet.drop (ipv4TransportAt packet)⟩ (byteAt packet 9)
      { row with
        srcAddr := inet4 ((packet.drop 12).take 4), dstAddr := inet4 ((packet.drop 16).take 4)
        protocol := some (byteAt packet 9), tos := some (byteAt packet 1) } := by
  have hvihl : (Cursor.mk packet).u8 = some (byteAt packet 0, ⟨packet.drop 1⟩) := by
    rw [← ofNat_field_one (by omega)]
    exact @u8_drop packet 0 (by omega)
  have htos : (Cursor.mk (packet.drop 1)).u8 = some (byteAt packet 1, ⟨packet.drop 2⟩) := by
    rw [u8_drop (by omega), ofNat_field_one (by omega)]
  have hplaces := ipv4_places h
  simp only [afterAll, List.foldl_cons, List.foldl_nil] at hplaces
  unfold parseIpv4
  simp only [hvihl, htos]
  simp (disch := decide) only [skip_at, attempt_u8_at, attempt_take_at, getD_byteAt, inet4_ofLength.getD]
  rw [skip_options]
  rcases hplaces with ⟨hshort, hproto, hsrc, hdst, hoptions⟩ | ⟨hlong, hproto, hsrc, hdst, hoptions⟩
  · have hcursor : packet.drop (if packet.length + (headerLength packet - 20) ≤ packet.length
        then packet.length + (headerLength packet - 20) else packet.length) =
        packet.drop (ipv4TransportAt packet) := by
      rw [List.drop_eq_nil_of_le (by split <;> omega), ipv4TransportAt, if_pos (by omega),
        List.drop_eq_nil_of_le (by omega)]
    rw [hoptions, hdst, hsrc, hproto, hcursor, byteAt_of_le le_rfl, byteAt_of_le (show packet.length ≤ 9 by omega),
      inet4_ofLength.of_lt (by omega), inet4_ofLength.of_lt (by omega), inet4_ofLength.of_lt (by omega)]
  · have hsrc' : inet4 ((packet.drop (if packet.length < 12 then 10 else 12)).take 4) =
        inet4 ((packet.drop 12).take 4) := inet4_ofLength.ite (by omega)
    have hdst' : inet4 ((packet.drop (if packet.length < 12 then 10 else if packet.length < 16 then 12
        else 16)).take 4) = inet4 ((packet.drop 16).take 4) := by
      split
      · rw [inet4_ofLength.of_lt (by omega), inet4_ofLength.of_lt (by omega)]
      · exact inet4_ofLength.ite (by omega)
    have hheader : headerLength packet = 20 ∨ 24 ≤ headerLength packet := by
      unfold headerLength
      omega
    rw [hoptions, hdst, hsrc, hproto, hsrc', hdst', ipv4TransportAt]
    congr 3
    split_ifs <;> omega

/-- Where the reads of an IPv6 header leave the cursor: a header without its addresses is read to its end. -/
theorem ipv6_places {length : ℕ} (h : 4 ≤ length) :
    let nextHeader := after length 4 2
    let src := afterAll length nextHeader [1, 1]
    let dst := after length src 16
    let transport := after length dst 16
    length < 8 ∧ nextHeader = (if length < 6 then 4 else 6) ∧ src = length ∧ dst = length ∧ transport = length ∨
      8 ≤ length ∧ nextHeader = 6 ∧ src = 8 ∧ dst = (if length < 24 then 8 else 24) ∧
        transport = if length < 24 then 8 else if length < 40 then 24 else 40 := by
  intro nextHeader src dst transport
  have hnextHeader : nextHeader = if length < 6 then 4 else 6 := by
    simp only [nextHeader, after]
    split_ifs <;> omega
  by_cases hshort : length < 8
  · have hend : after length length 16 = length := if_neg (by omega)
    have hsrc : src = length := by
      simp only [src, hnextHeader, afterAll, List.foldl_cons, List.foldl_nil, after]
      split_ifs <;> omega
    have hdst : dst = length := by simp only [dst, hsrc, hend]
    have htransport : transport = length := by simp only [transport, hdst, hend]
    exact .inl ⟨hshort, hnextHeader, hsrc, hdst, htransport⟩
  · have hsrc : src = 8 := by
      simp only [src, hnextHeader, afterAll, List.foldl_cons, List.foldl_nil, after]
      split_ifs <;> omega
    have hdst : dst = if length < 24 then 8 else 24 := by
      simp only [dst, hsrc, after]
      split_ifs <;> omega
    have htransport : transport = if length < 24 then 8 else if length < 40 then 24 else 40 := by
      simp only [transport, hdst, after]
      split_ifs <;> omega
    exact .inr ⟨by omega, by rw [hnextHeader, if_neg (by omega)], hsrc, hdst, htransport⟩

/-- What an IPv6 header gives, by the places it is read from. -/
theorem parseIpv6_eq {packet : Bytes} (h : 4 ≤ packet.length) (row : FlowRecord) :
    parseIpv6 ⟨packet⟩ row = parseL4 ⟨packet.drop (ipv6TransportAt packet)⟩ (byteAt packet (nextHeaderAt packet))
      { row with
        srcAddr := inet6 ((packet.drop 8).take 16), dstAddr := inet6 ((packet.drop 24).take 16)
        protocol := some (byteAt packet (nextHeaderAt packet)) } := by
  have hvtc : (Cursor.mk packet).u32 = _ := @u32_drop packet 0 (by omega)
  have hplaces := ipv6_places h
  simp only [afterAll, List.foldl_cons, List.foldl_nil] at hplaces
  unfold parseIpv6
  simp only [hvtc, Nat.zero_add]
  simp (disch := decide) only [skip_at, attempt_u8_at, attempt_take_at, getD_byteAt, inet6_ofLength.getD]
  rcases hplaces with ⟨hshort, hnextHeader, hsrc, hdst, htransport⟩ | ⟨hlong, hnextHeader, hsrc, hdst, htransport⟩
  · have hbyte : byteAt packet (if packet.length < 6 then 4 else 6) = byteAt packet (nextHeaderAt packet) := by
      rw [nextHeaderAt]
      split
      · split
        · rfl
        · rw [byteAt_of_le (by omega), byteAt_of_le (by omega)]
      · rw [if_neg (by omega)]
    have hcursor : packet.drop packet.length = packet.drop (ipv6TransportAt packet) := by
      rw [ipv6TransportAt, if_pos (by omega), List.drop_length, List.drop_eq_nil_of_le (by omega)]
    rw [htransport, hdst, hsrc, hnextHeader, hcursor, hbyte, inet6_ofLength.of_lt (by omega),
      inet6_ofLength.of_lt (by omega), inet6_ofLength.of_lt (by omega)]
  · have hdst' : inet6 ((packet.drop (if packet.length < 24 then 8 else 24)).take 16) =
        inet6 ((packet.drop 24).take 16) := inet6_ofLength.ite (by omega)
    have hbyte : nextHeaderAt packet = 6 := if_neg (by omega)
    rw [htransport, hdst, hsrc, hnextHeader, hdst', hbyte, ipv6TransportAt]

/-- An IPv4 packet of fewer than two bytes tells nothing. -/
theorem parseIpv4_of_lt {packet : Bytes} {row : FlowRecord} (h : packet.length < 2) : parseIpv4 ⟨packet⟩ row = row := by
  match packet, h with
  | [], _ => rfl
  | [_], _ => rfl

/-- An IPv6 packet of fewer than four bytes tells nothing. -/
theorem parseIpv6_of_lt {packet : Bytes} {row : FlowRecord} (h : packet.length < 4) : parseIpv6 ⟨packet⟩ row = row := by
  have hnone : (Cursor.mk packet).u32 = none := Cursor.u32_of_lt h
  rw [parseIpv6, hnone]

/-- A word that is not zero is there. -/
theorem le_length_of_wordAt {data : Bytes} {pos : ℕ} (h : wordAt data pos ≠ 0) : pos + 2 ≤ data.length := by
  by_contra hshort
  exact h (wordAt_of_lt (by omega))

/-- The parser of a packet, by the ethertype at an offset of the frame. -/
def parsePacketAt (frame : Bytes) (pos : ℕ) (cursor : Cursor) (row : FlowRecord) : FlowRecord :=
  if wordAt frame pos = 0x0800 then parseIpv4 cursor row
  else if wordAt frame pos = 0x86dd then parseIpv6 cursor row
  else row

/-- An ethertype that is not there announces no packet. -/
theorem parsePacketAt_of_zero {frame : Bytes} {pos : ℕ} (h : wordAt frame pos = 0) (cursor : Cursor)
    (row : FlowRecord) : parsePacketAt frame pos cursor row = row := by
  rw [parsePacketAt, h, if_neg (by decide), if_neg (by decide)]

/-- A packet starts behind its ethertype. -/
theorem parsePacketAt_after (frame : Bytes) (pos : ℕ) (row : FlowRecord) :
    parsePacketAt frame pos ⟨frame.drop (after frame.length pos 2)⟩ row =
      parsePacketAt frame pos ⟨frame.drop (pos + 2)⟩ row := by
  by_cases hzero : wordAt frame pos = 0
  · rw [parsePacketAt_of_zero hzero, parsePacketAt_of_zero hzero]
  · rw [after, if_pos (le_length_of_wordAt hzero)]

/-- A frame is parsed as what follows its Ethernet header, by the ethertype where that stands. -/
theorem parseL2_eq_parsePacketAt (frame : Bytes) (row : FlowRecord) :
    parseL2 frame row = parsePacketAt frame (ethertypeAt frame) ⟨network frame⟩ row := by
  have hstart : Cursor.new frame = ⟨frame.drop 0⟩ := rfl
  unfold parseL2
  rw [hstart]
  simp (disch := decide) only [skip_at, attempt_u16_at, getD_wordAt]
  by_cases hmacs : 12 ≤ frame.length
  · have hbehind : after frame.length 0 12 = 12 := if_pos (by omega)
    rw [hbehind, if_pos (decide_eq_true (by omega))]
    by_cases htag : wordAt frame 12 = 0x8100
    · have htagged : 14 ≤ frame.length := le_length_of_wordAt (by rw [htag]; decide)
      have hinner : after frame.length 12 2 = 14 := if_pos (by omega)
      have hplace : ethertypeAt frame = 16 := if_pos htag
      rw [network, hplace, ← parsePacketAt_after]
      simp only [htag, if_true, hinner]
      by_cases hwhole : 16 ≤ frame.length
      · rw [show after frame.length 14 2 = 16 from if_pos (by omega)]
        rfl
      · have hnone : wordAt frame 14 = 0 := wordAt_of_lt (by omega)
        rw [show after frame.length 14 2 = 14 from if_neg (by omega), parsePacketAt_of_zero (wordAt_of_lt (by omega))]
        exact parsePacketAt_of_zero hnone _ row
    · have hplace : ethertypeAt frame = 12 := if_neg htag
      rw [network, hplace, ← parsePacketAt_after]
      simp only [htag, if_false]
      rfl
  · have hnone : wordAt frame 12 = 0 := wordAt_of_lt (by omega)
    have hplace : ethertypeAt frame = 12 := if_neg (by rw [hnone]; decide)
    rw [if_neg (by simpa using hmacs), hplace, parsePacketAt_of_zero hnone]

/-- A frame is an Ethernet header, and an IPv4 or IPv6 packet if its ethertype says so. -/
theorem parseL2_eq (frame : Bytes) (row : FlowRecord) :
    parseL2 frame row =
      if ethertype frame = 0x0800 then parseIpv4 ⟨network frame⟩ row
      else if ethertype frame = 0x86dd then parseIpv6 ⟨network frame⟩ row
      else row := parseL2_eq_parsePacketAt frame row

end Network

end Netflow.Sflow
