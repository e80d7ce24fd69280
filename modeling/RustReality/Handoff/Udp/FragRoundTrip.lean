import RustReality.Handoff.Udp.FragInv

/-!
# Split and reassembly are inverse

A family of datagrams with distinct fragment ids is split, and their fragments arrive in any order,
interleaved and repeated. The abstract reassembler is the set of fragments that wait for their
siblings. A group of the concrete one represents the waiting fragments of one datagram (`Holds`);
as long as nothing has to expire or to be evicted, the two answer alike, and the answers of the
abstract one are read off the fragments that have arrived.
-/

namespace RustReality.Handoff.Udp
open Mealy List Option

/-! ### Fragments -/

theorem encodeFragment_inj {id id' : UInt32} {i i' n n' : Nat} {c c' : Bytes} (hi : i < 256)
    (hi' : i' < 256) (h : encodeFragment id i n c = encodeFragment id' i' n' c') : id = id' ∧ i = i' := by
  simp only [encodeFragment, append_assoc] at h
  obtain ⟨hid, hr⟩ := append_inj h (by simp)
  constructor
  · exact UInt32.toNat_inj.mp (beBytes_inj id.toNat_lt id'.toNat_lt hid)
  · have hb := congrArg UInt8.toNat (List.cons.inj hr).1
    simp only [UInt8.toNat_ofNat'] at hb
    omega

theorem length_encodeFragment (id : UInt32) (i n : Nat) (c : Bytes) :
    (encodeFragment id i n c).length = fragHeaderLen + c.length := by
  simp only [encodeFragment, length_append, length_beBytes, length_cons, length_nil]
  rfl

def fragmentId (x : Bytes) : UInt32 := UInt32.ofNat (ofBe (x.take 4))

def fragmentIndex (x : Bytes) : Nat := (x.getD 4 0).toNat

theorem fragmentId_encodeFragment (id : UInt32) (i n : Nat) (c : Bytes) :
    fragmentId (encodeFragment id i n c) = id := by
  rw [fragmentId, encodeFragment, append_assoc, take_left' (by simp), ofBe_beBytes id.toNat_lt]
  exact UInt32.ofNat_toNat

theorem fragmentIndex_encodeFragment (id : UInt32) {i : Nat} (hi : i < 256) (n : Nat) (c : Bytes) :
    fragmentIndex (encodeFragment id i n c) = i := by
  simp only [fragmentIndex, encodeFragment, append_assoc, getD_eq_getElem?_getD]
  simp
  omega

theorem parseFragment_encodeFragment (limits : ReassemblyLimits) (id : UInt32) {i n : Nat} {c : Bytes}
    (ht : 2 ≤ n) (hn : n ≤ maxFragments) (hi : i < n) (hp : 0 < c.length)
    (hle : c.length ≤ maxDataPlaintextLen) (hm : c.length ≤ limits.maxBytes) :
    parseFragment limits (encodeFragment id i n c) = .ok ⟨id, i, n, c, ht, hn, hi, hp, hle⟩ := by
  have hn256 : n < 256 := Nat.lt_of_le_of_lt hn (by decide)
  have hid := fragmentId_encodeFragment id i n c
  have hin := fragmentIndex_encodeFragment id (hi.trans hn256) n c
  rw [fragmentId] at hid
  rw [fragmentIndex] at hin
  have hd : (encodeFragment id i n c).drop fragHeaderLen = c := by
    rw [encodeFragment, drop_left' (by simp [fragHeaderLen])]
  have hc : ((encodeFragment id i n c).getD 5 0).toNat = n := by
    simp only [encodeFragment, append_assoc, getD_eq_getElem?_getD]
    rw [getElem?_append_right (by simp)]
    simp
    omega
  unfold parseFragment
  simp only [hd, hin, hc, hid, length_encodeFragment]
  rw [dif_neg (by omega), dif_neg (by omega), dif_neg (by omega)]

/-! ### Datagrams -/

/-- A datagram that `splitFragments` accepts, with its fragments. -/
structure Datagram where
  id : UInt32
  plaintext : Bytes
  maxChunk : Nat
  fragments : List Bytes
  split : splitFragments id plaintext maxChunk = .ok fragments

variable {x : Bytes}

namespace Datagram

variable (d : Datagram)

def chunks : List Bytes := Vec.chunks d.maxChunk d.plaintext

/-- The fragment that carries chunk `c` at index `i`. -/
def fragment (i : Nat) (c : Bytes) : Bytes := encodeFragment d.id i d.chunks.length c

theorem split_accepts :
    d.plaintext.length ≤ maxDataPlaintextLen ∧ 0 < d.maxChunk ∧ d.chunks.length ≤ maxFragments ∧
      d.fragments = d.chunks.zipIdx.map fun p => d.fragment p.2 p.1 := by
  have h := d.split
  simp only [splitFragments] at h
  split at h
  · cases h
  · rename_i hok
    split at h
    · cases h
    · rename_i hc
      simp only [not_or, Nat.not_lt] at hok hc
      have hl : d.chunks.length = (d.plaintext.length + (d.maxChunk - 1)) / d.maxChunk := by
        simp [chunks]
      refine ⟨hok.2.1, Nat.pos_of_ne_zero hok.2.2, by rw [hl]; exact hc, ?_⟩
      rw [← Except.ok.inj h]
      simp only [fragment, hl]
      rfl

theorem length_fragments : d.fragments.length = d.chunks.length := by
  rw [d.split_accepts.2.2.2]
  simp

theorem getElem?_fragments (i : Nat) : d.fragments[i]? = d.chunks[i]?.map (d.fragment i) := by
  rw [d.split_accepts.2.2.2]
  simp [Option.map_map, Function.comp_def]

theorem mem_fragments : x ∈ d.fragments ↔ ∃ i c, d.chunks[i]? = some c ∧ x = d.fragment i c := by
  constructor
  · intro h
    obtain ⟨i, hi⟩ := mem_iff_getElem?.mp h
    rw [d.getElem?_fragments] at hi
    obtain ⟨c, hc, rfl⟩ := map_eq_some_iff.mp hi
    exact ⟨i, c, hc, rfl⟩
  · rintro ⟨i, c, hc, rfl⟩
    refine mem_of_getElem? (i := i) ?_
    rw [d.getElem?_fragments, hc]
    rfl

theorem index_lt {i : Nat} {c : Bytes} (h : d.chunks[i]? = some c) : i < 256 := by
  have hi := (List.getElem?_eq_some_iff.mp h).1
  have hm : d.chunks.length ≤ 16 := d.split_accepts.2.2.1
  omega

theorem flatten_chunks : d.chunks.flatten = d.plaintext := Vec.flatten_chunks d.split_accepts.2.1 _

theorem chunk_length_le {i : Nat} {c : Bytes} (h : d.chunks[i]? = some c) :
    c.length ≤ maxDataPlaintextLen := by
  have hs := (sublist_flatten_of_mem (mem_of_getElem? h)).length_le
  rw [d.flatten_chunks] at hs
  exact hs.trans d.split_accepts.1

theorem chunk_pos {i : Nat} {c : Bytes} (h : d.chunks[i]? = some c) : 0 < c.length :=
  Vec.chunks_pos d.split_accepts.2.1 h

/-- What the receiver reads out of a fragment of a datagram of at least two chunks. -/
def parsed (htwo : 2 ≤ d.chunks.length) {i : Nat} {c : Bytes} (h : d.chunks[i]? = some c) : Fragment :=
  ⟨d.id, i, d.chunks.length, c, htwo, d.split_accepts.2.2.1, (List.getElem?_eq_some_iff.mp h).1,
    d.chunk_pos h, d.chunk_length_le h⟩

theorem parseFragment_fragment (limits : ReassemblyLimits) (ht : 2 ≤ d.chunks.length) {i : Nat}
    {c : Bytes} (h : d.chunks[i]? = some c) (hm : c.length ≤ limits.maxBytes) :
    parseFragment limits (d.fragment i c) = .ok (d.parsed ht h) :=
  parseFragment_encodeFragment limits d.id ht d.split_accepts.2.2.1 _ (d.chunk_pos h)
    (d.chunk_length_le h) hm

/-- Fragments of datagrams with different ids differ; within a datagram the index tells them apart. -/
theorem fragment_inj {d d' : Datagram} {i i' : Nat} {c c' : Bytes} (h : d.chunks[i]? = some c)
    (h' : d'.chunks[i']? = some c') (heq : d.fragment i c = d'.fragment i' c') : d.id = d'.id ∧ i = i' :=
  encodeFragment_inj (d.index_lt h) (d'.index_lt h') heq

/-! ### The slots of a datagram some of whose fragments wait -/

/-- The slots of the group of a datagram when exactly the fragments in `pending` have arrived. -/
def slots (pending : List Bytes) : List (Option Bytes) :=
  d.chunks.zipIdx.map fun p => if d.fragment p.2 p.1 ∈ pending then some p.1 else none

@[simp] theorem length_slots (pending : List Bytes) : (d.slots pending).length = d.chunks.length := by
  simp [slots]

theorem getElem?_slots (pending : List Bytes) (i : Nat) :
    (d.slots pending)[i]? = d.chunks[i]?.map fun c => if d.fragment i c ∈ pending then some c else none := by
  simp [slots, Option.map_map, Function.comp_def]

theorem slots_congr {pending pending' : List Bytes} (h : ∀ x ∈ d.fragments, x ∈ pending ↔ x ∈ pending') :
    d.slots pending = d.slots pending' := by
  apply ext_getElem?
  intro i
  rw [getElem?_slots, getElem?_slots]
  cases hc : d.chunks[i]? with
  | none => rfl
  | some c => simp only [map_some, h _ (d.mem_fragments.mpr ⟨i, c, hc, rfl⟩)]

theorem slots_set (pending : List Bytes) {i : Nat} {c : Bytes} (h : d.chunks[i]? = some c) :
    (d.slots pending).set i (some c) = d.slots (pending ++ [d.fragment i c]) := by
  apply ext_getElem?
  intro j
  rcases eq_or_ne i j with rfl | hne
  · have hlt : i < (d.slots pending).length := by
      rw [length_slots]
      exact (List.getElem?_eq_some_iff.mp h).1
    simp [getElem?_slots, h, getElem?_set_self hlt]
  · rw [getElem?_set_ne hne, getElem?_slots, getElem?_slots]
    cases hc : d.chunks[j]? with
    | none => rfl
    | some c' =>
      have hd : d.fragment j c' ≠ d.fragment i c := fun heq => hne (fragment_inj hc h heq).2.symm
      simp [hd]

theorem isSome_slots_iff (pending : List Bytes) :
    (∀ slot ∈ d.slots pending, slot.isSome) ↔ ∀ x ∈ d.fragments, x ∈ pending := by
  constructor
  · intro h x hx
    obtain ⟨i, c, hc, rfl⟩ := d.mem_fragments.mp hx
    by_contra hno
    have hs : (d.slots pending)[i]? = some none := by simp [getElem?_slots, hc, hno]
    exact absurd (h none (mem_of_getElem? hs)) (by simp)
  · intro h slot hs
    obtain ⟨i, hi⟩ := mem_iff_getElem?.mp hs
    rw [getElem?_slots] at hi
    obtain ⟨c, hc, rfl⟩ := map_eq_some_iff.mp hi
    simp [h _ (d.mem_fragments.mpr ⟨i, c, hc, rfl⟩)]

theorem reduceOption_slots_sublist (pending : List Bytes) :
    (d.slots pending).reduceOption.Sublist d.chunks := by
  have hg : ∀ l : List (Bytes × Nat), (l.map fun p =>
      if d.fragment p.2 p.1 ∈ pending then some p.1 else none).reduceOption.Sublist (l.map Prod.fst) := by
    intro l
    induction l with
    | nil => exact .slnil
    | cons p l ih =>
      by_cases hp : d.fragment p.2 p.1 ∈ pending
      · simpa [hp] using ih
      · simpa [hp] using ih.cons p.1
  simpa [slots] using hg d.chunks.zipIdx

theorem storedBytes_slots_le (pending : List Bytes) :
    storedBytes (d.slots pending) ≤ maxDataPlaintextLen := by
  have hl := ((d.reduceOption_slots_sublist pending).flatten).length_le
  rw [d.flatten_chunks, length_flatten] at hl
  exact hl.trans d.split_accepts.1

theorem flatten_slots {pending : List Bytes} (h : ∀ x ∈ d.fragments, x ∈ pending) :
    (d.slots pending).reduceOption.flatten = d.plaintext := by
  have hl := reduceOption_length_eq_iff.mpr ((d.isSome_slots_iff pending).mpr h)
  rw [d.length_slots] at hl
  rw [(d.reduceOption_slots_sublist pending).eq_of_length hl, d.flatten_chunks]

end Datagram

/-! ### The abstract reassembler -/

def owner (family : List Datagram) (x : Bytes) : Option Datagram :=
  family.find? fun d => decide (x ∈ d.fragments)

/-- Add an arriving fragment to the waiting ones; a complete datagram leaves. -/
def arrive (family : List Datagram) (pending : List Bytes) (x : Bytes) : List Bytes × Option Bytes :=
  match owner family x with
  | none => (pending, none)
  | some d =>
    let waiting := if x ∈ pending then pending else pending ++ [x]
    if ∀ y ∈ d.fragments, y ∈ waiting then
      (waiting.filter fun y => decide (y ∉ d.fragments), some d.plaintext)
    else (waiting, none)

variable {d : Datagram} {family : List Datagram}

theorem owner_eq (hids : (family.map Datagram.id).Nodup) (hd : d ∈ family) (hx : x ∈ d.fragments) :
    owner family x = some d := by
  cases hf : owner family x with
  | none =>
    have := find?_eq_none.mp hf d hd
    simp [hx] at this
  | some d' =>
    have hd' := mem_of_find?_eq_some hf
    have hx' : x ∈ d'.fragments := by simpa using find?_some hf
    obtain ⟨i, c, hc, rfl⟩ := d.mem_fragments.mp hx
    obtain ⟨i', c', hc', heq⟩ := d'.mem_fragments.mp hx'
    rw [inj_on_of_nodup_map hids hd' hd (Datagram.fragment_inj hc hc' heq).1.symm]

/-- Whether an arriving fragment of `d` is the last one `d` was waiting for. -/
def Completes (d : Datagram) (pending : List Bytes) (x : Bytes) : Prop :=
  ∀ y ∈ d.fragments, y ∈ pending ∨ y = x

instance (d : Datagram) (pending : List Bytes) (x : Bytes) : Decidable (Completes d pending x) :=
  inferInstanceAs (Decidable (∀ y ∈ d.fragments, y ∈ pending ∨ y = x))

theorem arrive_eq (hids : (family.map Datagram.id).Nodup) (hd : d ∈ family) (hx : x ∈ d.fragments)
    (pending : List Bytes) :
    (arrive family pending x).2 = (if Completes d pending x then some d.plaintext else none) ∧
      ∀ y, y ∈ (arrive family pending x).1 ↔
        (y ∈ pending ∨ y = x) ∧ (Completes d pending x → y ∉ d.fragments) := by
  have hw : ∀ y, y ∈ (if x ∈ pending then pending else pending ++ [x]) ↔ y ∈ pending ∨ y = x := by
    intro y
    split_ifs with hm
    · exact ⟨.inl, fun h => h.elim id fun heq => heq ▸ hm⟩
    · simp
  simp only [arrive, owner_eq hids hd hx, hw]
  by_cases ha : Completes d pending x
  · have ha' : ∀ y ∈ d.fragments, y ∈ pending ∨ y = x := ha
    simp only [ha, if_true]
    rw [if_pos ha']
    refine ⟨rfl, fun y => ?_⟩
    rw [mem_filter, hw, decide_eq_true_iff]
    simp
  · have ha' : ¬∀ y ∈ d.fragments, y ∈ pending ∨ y = x := ha
    simp only [ha, if_false]
    rw [if_neg ha']
    refine ⟨rfl, fun y => ?_⟩
    rw [hw]
    simp

theorem not_mem_fragments (hids : (family.map Datagram.id).Nodup)
    {d' : Datagram} (hd : d ∈ family) (hd' : d' ∈ family) (hne : d'.id ≠ d.id)
    (hx : x ∈ d.fragments) : x ∉ d'.fragments := fun hx' => by
  have heq := (owner_eq hids hd hx).symm.trans (owner_eq hids hd' hx')
  exact hne (congrArg Datagram.id (Option.some.inj heq)).symm

/-! ### Inserting without expiry or eviction -/

namespace Reassembler

/-- Nothing has to make way for a fragment: no group is due to expire, a new group fits, and so do
the bytes of a chunk that is not held yet. -/
structure Quiet (r : Reassembler) (x : Bytes) (now : Nat) : Prop where
  fresh : ∀ g ∈ r.groups, now - g.started < r.limits.timeout
  group : (∀ g ∈ r.groups, g.id ≠ fragmentId x) → r.groups.length < r.limits.maxGroups
  bytes : (∀ g ∈ r.groups, g.id = fragmentId x → g.chunks.getD (fragmentIndex x) none = none) →
    r.bytes + (x.length - fragHeaderLen) ≤ r.limits.maxBytes

variable {r : Reassembler}

theorem expireLoop_fresh (now fuel : Nat) (index : Nat) (h : ∀ g ∈ r.groups, now - g.started < r.limits.timeout)
    (hf : r.groups.length ≤ fuel + index) : expireLoop now fuel r index = .ok r := by
  induction fuel generalizing index with
  | zero => exact if_neg (by omega)
  | succ fuel ih =>
    rw [expireLoop]
    cases hi : r.groups[index]? with
    | none => rfl
    | some g =>
      have hlt := h g (mem_of_getElem? hi)
      simp only [ge_iff_le, Nat.not_le.mpr hlt, if_false]
      exact ih (index + 1) (by omega)

theorem evictLoop_room (fuel : Nat) (h : r.groups.length < r.limits.maxGroups) :
    evictLoop fuel r = .ok r := by
  cases fuel <;> exact if_neg (by omega)

theorem makeRoom_room (id : UInt32) {len : Nat} (fuel : Nat) (h : r.bytes + len ≤ r.limits.maxBytes) :
    makeRoom id len fuel r = .ok (r, true) := by
  cases fuel <;> exact if_neg (by omega)

variable {f : Fragment}

theorem insert_quiet {now : Nat} (hf : ∀ g ∈ r.groups, now - g.started < r.limits.timeout)
    (hp : parseFragment r.limits x = .ok f) :
    r.insert x now = r.locate f.id f.count now >>= fun p => p.1.accept p.2 f := by
  have he : r.expire now = .ok r := expireLoop_fresh now _ 0 hf (Nat.le_refl _)
  exact insert_parsed he hp

theorem accept_duplicate {i : Nat} {g : Group} {c : Bytes}
    (hi : r.groups[i]? = some g) (hc : g.count = f.count) (hs : g.chunks[f.index]? = some (some c)) :
    r.accept i f = .ok (r, .ok none) := by
  simp [accept, hi, hc, hs]

theorem accept_store {i : Nat} {g : Group} (hi : r.groups[i]? = some g) (hc : g.count = f.count)
    (hs : g.chunks[f.index]? = some none) (hle : g.bytes + f.chunk.length ≤ maxDataPlaintextLen)
    (hr : r.bytes + f.chunk.length ≤ r.limits.maxBytes) : r.accept i f = r.store f := by
  simp only [accept, hi, hc, hs, makeRoom_room _ _ hr, ne_eq, not_true_eq_false, if_false,
    gt_iff_lt, Nat.not_lt.mpr hle]
  rfl

/-! ### The groups represent the waiting fragments -/

/-- The group of `d` when the fragments in `pending` have arrived. -/
structure Holds (g : Group) (d : Datagram) (pending : List Bytes) : Prop where
  id : g.id = d.id
  count : g.count = d.chunks.length
  chunks : g.chunks = d.slots pending

structure Represents (family : List Datagram) (r : Reassembler) (pending : List Bytes) : Prop where
  inv : r.Inv
  group : ∀ g ∈ r.groups, ∃ d ∈ family, Holds g d pending
  waiting : ∀ d ∈ family, ∀ x ∈ d.fragments, x ∈ pending → ∃ g ∈ r.groups, g.id = d.id

/-- No group is empty; this fails only between the two halves of an insert. -/
def Live (r : Reassembler) : Prop := ∀ g ∈ r.groups, 0 < g.received

theorem Represents.init (family : List Datagram) (limits : ReassemblyLimits) :
    Represents family (new limits) [] :=
  ⟨.init limits, by simp [new], by simp⟩

variable {family : List Datagram} {r : Reassembler} {pending : List Bytes} {g : Group} {i : Nat} {c : Bytes}

theorem holds_start (hn : ∀ x ∈ d.fragments, x ∉ pending) (now : Nat) :
    Holds (Group.start d.id d.chunks.length now) d pending := by
  refine ⟨rfl, rfl, ext_getElem? fun i => ?_⟩
  rw [d.getElem?_slots]
  cases hc : d.chunks[i]? with
  | none => simpa [Group.start] using hc
  | some c =>
    have hi := (List.getElem?_eq_some_iff.mp hc).1
    simp [Group.start, hi, hn _ (d.mem_fragments.mpr ⟨i, c, hc, rfl⟩)]

/-- A fragment that has not arrived finds its slot empty, and the datagram has room for it. -/
theorem Holds.slot (h : Holds g d pending) (hi : g.Inv) (hc : d.chunks[i]? = some c)
    (hn : d.fragment i c ∉ pending) :
    g.chunks[i]? = some none ∧ g.bytes + c.length ≤ maxDataPlaintextLen := by
  have hs : g.chunks[i]? = some none := by
    rw [h.chunks, d.getElem?_slots, hc]
    simp [hn]
  refine ⟨hs, ?_⟩
  rw [hi.bytes_eq, ← Group.storedBytes_set hs c, h.chunks, d.slots_set _ hc]
  exact d.storedBytes_slots_le _

theorem Holds.fill (h : Holds g d pending) (hc : d.chunks[i]? = some c) :
    Holds (g.fill i c) d (pending ++ [d.fragment i c]) := by
  refine ⟨h.id, h.count, ?_⟩
  show g.chunks.set i (some c) = _
  rw [h.chunks, d.slots_set pending hc]

theorem Holds.complete_iff (h : Holds g d pending) :
    (∀ slot ∈ g.chunks, slot.isSome) ↔ ∀ x ∈ d.fragments, x ∈ pending := by
  rw [h.chunks]
  exact d.isSome_slots_iff _

theorem Holds.incomplete (h : Holds g d pending) (hi : g.Inv) : ¬∀ x ∈ d.fragments, x ∈ pending := fun ha =>
  absurd (h.complete_iff.mpr ha none hi.none_mem) (by simp)

theorem Represents.holds (h : Represents family r pending) (hids : (family.map Datagram.id).Nodup) (hd : d ∈ family)
    (hg : g ∈ r.groups) (hid : g.id = d.id) : Holds g d pending := by
  obtain ⟨d', hd', hh⟩ := h.group g hg
  obtain rfl := inj_on_of_nodup_map hids hd' hd (hh.id.symm.trans hid)
  exact hh

theorem bytes_le_of_mem (h : r.Inv) (hg : g ∈ r.groups) : g.bytes ≤ r.limits.maxBytes := by
  have hle := le_sum_of_mem (mem_map_of_mem (f := Group.bytes) hg)
  have := h.bytes_le
  have := h.accounted
  rw [Accounted] at this
  omega

theorem length_le_storedBytes {chunks : List (Option Bytes)} {c : Bytes} (h : some c ∈ chunks) :
    c.length ≤ storedBytes chunks :=
  le_sum_of_mem (mem_map_of_mem (reduceOption_mem_iff.mpr h))

/-- Finding or opening the group of a datagram leaves the waiting fragments as they are. -/
theorem Represents.locate (h : Represents family r pending) (hd : d ∈ family)
    (ht : 2 ≤ d.chunks.length) (now : Nat)
    (hr : (∀ g ∈ r.groups, g.id ≠ d.id) → r.groups.length < r.limits.maxGroups) :
    ∃ r' i g, r.locate d.id d.chunks.length now = .ok (r', i) ∧ Represents family r' pending ∧
      r'.groups[i]? = some g ∧ g.id = d.id ∧ r'.limits = r.limits ∧ r'.bytes = r.bytes ∧
      ∀ g' ∈ r'.groups, g'.id ≠ d.id → g' ∈ r.groups := by
  rw [Reassembler.locate]
  cases hp : r.position d.id with
  | some i =>
    obtain ⟨g, hi, hid⟩ := position_some hp
    exact ⟨r, i, g, rfl, h, hi, hid, rfl, rfl, fun g' hg' _ => hg'⟩
  | none =>
    have hn := position_none hp
    have hlt := hr hn
    let fresh := Group.start d.id d.chunks.length now
    have hf : Holds fresh d pending := holds_start (fun x hx hm => by
      obtain ⟨g, hg, hid⟩ := h.waiting d hd x hx hm
      exact hn g hg hid) now
    refine ⟨{ r with groups := r.groups ++ [fresh] }, r.groups.length, fresh, ?_, ⟨?_, ?_, ?_⟩, by simp,
      rfl, rfl, rfl, ?_⟩
    · simp only [evictLoop_room _ hlt]
      rfl
    · exact h.inv.push ht now hn hlt
    · intro g hg
      rcases mem_append.mp hg with hg | hg
      · exact h.group g hg
      · rw [mem_singleton.mp hg]
        exact ⟨d, hd, hf⟩
    · intro d' hd' x hx hm
      obtain ⟨g, hg, hid⟩ := h.waiting d' hd' x hx hm
      exact ⟨g, mem_append_left _ hg, hid⟩
    · intro g' hg' hne
      rcases mem_append.mp hg' with hg' | hg'
      · exact hg'
      · exact absurd (by rw [mem_singleton.mp hg']; rfl) hne

theorem Represents.store (h : Represents family r pending) (hids : (family.map Datagram.id).Nodup) (hd : d ∈ family)
    (hg : g ∈ r.groups) (hid : g.id = d.id) (hl : ∀ g' ∈ r.groups, g'.id ≠ d.id → 0 < g'.received)
    (hsame : f.id = d.id) (hc : d.chunks[f.index]? = some f.chunk)
    (hnew : d.fragment f.index f.chunk ∉ pending) (hr : r.bytes + f.chunk.length ≤ r.limits.maxBytes) :
    ∃ r' out, r.store f = .ok (r', .ok out) ∧ Live r' ∧ r'.limits = r.limits ∧
      Represents family r' (arrive family pending (d.fragment f.index f.chunk)).1 ∧
      out = (arrive family pending (d.fragment f.index f.chunk)).2 := by
  set x := d.fragment f.index f.chunk with hx
  have hxm : x ∈ d.fragments := d.mem_fragments.mpr ⟨_, _, hc, rfl⟩
  have hhl := h.holds hids hd hg hid
  obtain ⟨hsl, hle⟩ := hhl.slot (h.inv.groups g hg) hc hnew
  have hf : Holds (g.fill f.index f.chunk) d (pending ++ [x]) := hhl.fill hc
  obtain ⟨r', out, others, hst, hInv, hlm, -, hp, hcs⟩ :=
    store_spec h.inv hg (hid.trans hsame.symm) hsl hle hr
  have hot : ∀ g' ∈ others, g' ∈ r.groups ∧ g'.id ≠ d.id := by
    intro g' hg'
    have hnd := (hp.map Group.id).nodup_iff.mp h.inv.ids
    rw [map_cons, nodup_cons] at hnd
    refine ⟨hp.mem_iff.mpr (.tail _ hg'), fun heq => hnd.1 ?_⟩
    rw [hid, ← heq]
    exact mem_map_of_mem hg'
  -- groups of other datagrams see neither the new fragment nor the departure of this datagram
  have hk : ∀ waiting : List Bytes, (∀ y, y ∉ d.fragments → (y ∈ pending ↔ y ∈ waiting)) →
      ∀ g' ∈ others, ∃ d' ∈ family, Holds g' d' waiting := by
    intro waiting hs g' hg'
    obtain ⟨hm, hne⟩ := hot g' hg'
    obtain ⟨d', hd', hh⟩ := h.group g' hm
    refine ⟨d', hd', hh.id, hh.count, hh.chunks.trans (d'.slots_congr fun y hy => hs y ?_)⟩
    exact not_mem_fragments hids hd' hd (fun heq => hne (hh.id.trans heq.symm)) hy
  have hw : ∀ d' ∈ family, d'.id ≠ d.id → ∀ y ∈ d'.fragments, y ∈ pending →
      ∃ g' ∈ others, g'.id = d'.id := by
    intro d' hd' hne y hy hm
    obtain ⟨g', hg', hid'⟩ := h.waiting d' hd' y hy hm
    rcases mem_cons.mp (hp.mem_iff.mp hg') with rfl | hg'
    · exact absurd (hid'.symm.trans hid) hne
    · exact ⟨g', hg', hid'⟩
  have ha : arrive family pending x = if ∀ y ∈ d.fragments, y ∈ pending ++ [x] then
      ((pending ++ [x]).filter fun y => decide (y ∉ d.fragments), some d.plaintext)
      else (pending ++ [x], none) := by
    simp only [arrive, owner_eq hids hd hxm, hnew, if_false]
  refine ⟨r', out, hst, ?_, hlm, ?_⟩
  · intro g' hg'
    rcases hcs with ⟨-, -, hgr⟩ | ⟨-, -, hgr⟩
    · rcases mem_cons.mp (hgr.mem_iff.mp hg') with rfl | hg'
      · exact Nat.succ_pos _
      · exact hl g' (hot g' hg').1 (hot g' hg').2
    · have hg' := hgr.mem_iff.mp hg'
      exact hl g' (hot g' hg').1 (hot g' hg').2
  rcases hcs with ⟨hi, rfl, hgr⟩ | ⟨hfl, rfl, hgr⟩
  · have hgg : (g.fill f.index f.chunk).Inv := (h.inv.groups g hg).fill hsl hle hi
    rw [ha, if_neg (hf.incomplete hgg)]
    refine ⟨⟨hInv, fun g' hg' => ?_, fun d' hd' y hy hm => ?_⟩, rfl⟩
    · rcases mem_cons.mp (hgr.mem_iff.mp hg') with rfl | hg'
      · exact ⟨d, hd, hf⟩
      · refine hk _ (fun y hy => ?_) g' hg'
        have hyx : y ≠ x := fun heq => hy (heq ▸ hxm)
        simp [hyx]
    · by_cases hs : d'.id = d.id
      · exact ⟨_, hgr.mem_iff.mpr (.head _), hid.trans hs.symm⟩
      · have hyx : y ≠ x := fun heq => not_mem_fragments hids hd hd' hs hxm (heq ▸ hy)
        obtain ⟨g', hg', hid'⟩ := hw d' hd' hs y hy (by simpa [hyx] using hm)
        exact ⟨g', hgr.mem_iff.mpr (.tail _ hg'), hid'⟩
  · have hal : ∀ y ∈ d.fragments, y ∈ pending ++ [x] :=
      hf.complete_iff.mp ((h.inv.groups g hg).fill_complete hsl hfl)
    rw [ha, if_pos hal]
    refine ⟨⟨hInv, fun g' hg' => ?_, fun d' hd' y hy hm => ?_⟩, ?_⟩
    · refine hk _ (fun y hy => ?_) g' (hgr.mem_iff.mp hg')
      have hyx : y ≠ x := fun heq => hy (heq ▸ hxm)
      simp [hy, hyx]
    · obtain ⟨hm, hn⟩ := mem_filter.mp hm
      rw [decide_eq_true_iff] at hn
      have hyx : y ≠ x := fun heq => hn (heq ▸ hxm)
      have hne : d'.id ≠ d.id := fun heq => by
        obtain rfl := inj_on_of_nodup_map hids hd' hd heq
        exact hn hy
      obtain ⟨g', hg', hid'⟩ := hw d' hd' hne y hy (by simpa [hyx] using hm)
      exact ⟨g', hgr.mem_iff.mpr hg', hid'⟩
    · show some (g.fill f.index f.chunk).chunks.reduceOption.flatten = _
      rw [hf.chunks, d.flatten_slots hal]

theorem Represents.insert (h : Represents family r pending) (hl : r.Live)
    (hids : (family.map Datagram.id).Nodup) (hd : d ∈ family)
    (ht : 2 ≤ d.chunks.length) (hx : x ∈ d.fragments) {now : Nat} (hq : r.Quiet x now) :
    ∃ r' out, r.insert x now = .ok (r', .ok out) ∧ r'.Live ∧ r'.limits = r.limits ∧
      Represents family r' (arrive family pending x).1 ∧ out = (arrive family pending x).2 := by
  obtain ⟨i, c, hc, rfl⟩ := d.mem_fragments.mp hx
  have hfd : fragmentId (d.fragment i c) = d.id := fragmentId_encodeFragment _ _ _ _
  have hfn : fragmentIndex (d.fragment i c) = i := fragmentIndex_encodeFragment _ (d.index_lt hc) _ _
  have hfl : (d.fragment i c).length - fragHeaderLen = c.length := by
    rw [Datagram.fragment, length_encodeFragment]
    omega
  obtain ⟨hf, hgr, hb⟩ := hq
  rw [hfd] at hgr hb
  rw [hfn, hfl] at hb
  by_cases hdp : d.fragment i c ∈ pending
  · obtain ⟨g, hg, hid⟩ := h.waiting d hd _ hx hdp
    have hho := h.holds hids hd hg hid
    have hs : g.chunks[i]? = some (some c) := by
      rw [hho.chunks, d.getElem?_slots, hc]
      simp [hdp]
    have hm : c.length ≤ r.limits.maxBytes := by
      have hst := length_le_storedBytes (mem_of_getElem? hs)
      rw [← (h.inv.groups g hg).bytes_eq] at hst
      exact hst.trans (bytes_le_of_mem h.inv hg)
    have hpr := d.parseFragment_fragment r.limits ht hc hm
    obtain ⟨p, hp⟩ := position_of_mem hg
    obtain ⟨g', hp', hid'⟩ := position_some hp
    obtain rfl := h.inv.eq_of_id (mem_of_getElem? hp') hg hid'
    rw [hid] at hp
    have ha : arrive family pending (d.fragment i c) = (pending, none) := by
      simp only [arrive, owner_eq hids hd hx, hdp, if_true, hho.incomplete (h.inv.groups _ hg), if_false]
    refine ⟨r, none, ?_, hl, rfl, by rwa [ha], by rw [ha]⟩
    rw [insert_quiet hf hpr]
    have hlc : r.locate d.id d.chunks.length now = .ok (r, p) := by simp only [Reassembler.locate, hp]
    simp only [Datagram.parsed, hlc]
    exact accept_duplicate hp' hho.count hs
  · have hrm : r.bytes + c.length ≤ r.limits.maxBytes := by
      refine hb fun g hg hid => ?_
      rw [(h.holds hids hd hg hid).chunks, getD_eq_getElem?_getD, d.getElem?_slots, hc]
      simp [hdp]
    have hpr := d.parseFragment_fragment r.limits ht hc (by omega)
    obtain ⟨r₁, p, g, hlc, h₁, hp, hid, hlm, hb₁, hot⟩ := h.locate hd ht now hgr
    have hg := mem_of_getElem? hp
    have hho := h₁.holds hids hd hg hid
    have hrm₁ : r₁.bytes + c.length ≤ r₁.limits.maxBytes := by rwa [hb₁, hlm]
    obtain ⟨r', out, hsr, hl', hlm', hr, ho⟩ := h₁.store hids hd hg hid
      (fun g' hg' hne => hl g' (hot g' hg' hne)) (f := d.parsed ht hc) rfl hc hdp hrm₁
    refine ⟨r', out, ?_, hl', hlm'.trans hlm, hr, ho⟩
    obtain ⟨hs, hle⟩ := hho.slot (h₁.inv.groups g hg) hc hdp
    rw [insert_quiet hf hpr]
    simp only [Datagram.parsed, hlc]
    exact (accept_store (f := d.parsed ht hc) hp hho.count hs hle hrm₁).trans hsr

/-! ### Whole runs -/

/-- Insert the fragments of a script one after the other, each at its time. -/
def insertAll (r : Reassembler) (script : List (Bytes × Nat)) :
    Except Fault (Reassembler × List (Except UdpPacketError (Option Bytes))) :=
  runE (fun r x => r.insert x.1 x.2) r script

def Undisturbed : Reassembler → List (Bytes × Nat) → Prop
  | _, [] => True
  | r, x :: xs => r.Quiet x.1 x.2 ∧ ∀ r' out, r.insert x.1 x.2 = .ok (r', out) → Undisturbed r' xs

theorem Represents.insertAll (hids : (family.map Datagram.id).Nodup)
    (ht : ∀ d ∈ family, 2 ≤ d.chunks.length) (script : List (Bytes × Nat))
    (hs : ∀ x ∈ script, ∃ d ∈ family, x.1 ∈ d.fragments) {pending : List Bytes}
    (h : Represents family r pending) (hl : r.Live) (hq : r.Undisturbed script) :
    let abstract := run (arrive family) pending (script.map Prod.fst)
    ∃ r', r.insertAll script = .ok (r', abstract.2.map .ok) ∧ r'.Live ∧
      Represents family r' abstract.1 := by
  induction script generalizing r pending with
  | nil => exact ⟨r, rfl, hl, h⟩
  | cons x xs ih =>
    obtain ⟨d, hd, hx⟩ := hs x (.head _)
    obtain ⟨r₁, out, hi, hl₁, -, h₁, rfl⟩ := h.insert hl hids hd (ht d hd) hx hq.1
    obtain ⟨r', hr, hl', h'⟩ := ih (fun y hy => hs y (.tail _ hy)) h₁ hl₁
      (hq.2 r₁ _ hi)
    exact ⟨r', runE_cons hi hr, hl', h'⟩

end Reassembler

/-! ### What the abstract reassembler waits for -/

section Waiting

variable {family : List Datagram} (hids : (family.map Datagram.id).Nodup)
include hids

theorem eq_of_mem_fragments {d' : Datagram} (hd : d ∈ family) (hd' : d' ∈ family)
    (hx : x ∈ d.fragments) (hx' : x ∈ d'.fragments) : d = d' :=
  Option.some.inj ((owner_eq hids hd hx).symm.trans (owner_eq hids hd' hx'))

/-- Of a datagram that is not complete yet, all fragments that arrived wait. -/
theorem mem_waiting_iff (arrived : List Bytes) (ho : ∀ x ∈ arrived, ∃ d ∈ family, x ∈ d.fragments) (hd : d ∈ family)
    (hm : ¬∀ y ∈ d.fragments, y ∈ arrived) :
    ∀ x ∈ d.fragments, x ∈ (run (arrive family) [] arrived).1 ↔ x ∈ arrived := by
  induction arrived using List.reverseRecOn with
  | nil => exact fun _ _ => Iff.rfl
  | append_singleton pre z ih =>
    obtain ⟨d', hd', hz⟩ := ho z (by simp)
    have hp : ¬∀ y ∈ d.fragments, y ∈ pre := fun ha =>
      hm fun y hy => mem_append_left _ (ha y hy)
    have hi := ih (fun y hy => ho y (mem_append_left _ hy)) hp
    intro x hx
    rw [run_append, run_cons, run_nil, (arrive_eq hids hd' hz _).2 x, hi x hx,
      mem_append, mem_singleton, and_iff_left_iff_imp]
    intro _ hc hxd'
    -- the datagram that completes would be `d` itself, and then nothing would be missing
    obtain rfl := eq_of_mem_fragments hids hd hd' hx hxd'
    refine hm fun y hy => ?_
    rw [mem_append, mem_singleton, ← hi y hy]
    exact hc y hy

theorem not_mem_waiting (arrived : List Bytes) (ho : ∀ x ∈ arrived, ∃ d ∈ family, x ∈ d.fragments)
    (honce : arrived.Nodup) (hd : d ∈ family) (ha : ∀ y ∈ d.fragments, y ∈ arrived) :
    ∀ x ∈ d.fragments, x ∉ (run (arrive family) [] arrived).1 := by
  induction arrived using List.reverseRecOn with
  | nil => exact fun _ _ => not_mem_nil
  | append_singleton pre z ih =>
    obtain ⟨d', hd', hz⟩ := ho z (by simp)
    have ho' : ∀ y ∈ pre, ∃ d ∈ family, y ∈ d.fragments := fun y hy =>
      ho y (mem_append_left _ hy)
    obtain ⟨hn, -, hds⟩ := nodup_append.mp honce
    have hzp : z ∉ pre := fun hm => hds z hm z (by simp) rfl
    intro x hx
    rw [run_append, run_cons, run_nil, (arrive_eq hids hd' hz _).2 x]
    rintro ⟨hm, hg⟩
    by_cases hzd : z ∈ d.fragments
    · -- `z` completes `d`, which leaves
      obtain rfl := eq_of_mem_fragments hids hd hd' hzd hz
      have hi := mem_waiting_iff hids pre ho' hd fun hp => hzp (hp z hzd)
      refine hg (fun y hy => ?_) hx
      rw [hi y hy, ← mem_singleton, ← mem_append]
      exact ha y hy
    · -- `d` left before
      have hp : ∀ y ∈ d.fragments, y ∈ pre := fun y hy => by
        rcases mem_append.mp (ha y hy) with hy' | hy'
        · exact hy'
        · rw [mem_singleton] at hy'
          exact absurd (hy' ▸ hy) hzd
      rcases hm with hm | rfl
      · exact ih ho' hn hp x hx hm
      · exact hzd hx

end Waiting

theorem nodup_fragments (hids : (family.map Datagram.id).Nodup) :
    (family.flatMap Datagram.fragments).Nodup := by
  rw [nodup_flatMap]
  constructor
  · intro d _
    rw [nodup_iff_injective_getElem]
    rintro ⟨i, hi⟩ ⟨j, hj⟩ heq
    have hi' := d.getElem?_fragments i
    have hj' := d.getElem?_fragments j
    rw [getElem?_eq_getElem hi] at hi'
    rw [getElem?_eq_getElem hj] at hj'
    obtain ⟨c, hc, hci⟩ := map_eq_some_iff.mp hi'.symm
    obtain ⟨c', hc', hcj⟩ := map_eq_some_iff.mp hj'.symm
    have hf : d.fragment i c = d.fragment j c' := (hci.trans heq).trans hcj.symm
    exact Fin.ext (Datagram.fragment_inj hc hc' hf).2
  · refine (pairwise_map.mp hids).imp_of_mem fun {d d'} hd hd' hne => ?_
    exact fun x hx hx' => not_mem_fragments hids hd hd' hne.symm hx hx'

/-! ### Round trip -/

namespace Reassembler

theorem Represents.groups_eq_nil {r : Reassembler} {pending : List Bytes}
    (h : Represents family r pending) (hl : r.Live)
    (hn : ∀ d ∈ family, ∀ x ∈ d.fragments, x ∉ pending) : r.groups = [] := by
  rw [eq_nil_iff_forall_not_mem]
  intro g hg
  obtain ⟨d, hd, hh⟩ := h.group g hg
  have hp := hl g hg
  rw [(h.inv.groups g hg).received_eq, hh.chunks] at hp
  obtain ⟨c, hc⟩ := exists_mem_of_length_pos hp
  obtain ⟨i, hi⟩ := mem_iff_getElem?.mp (reduceOption_mem_iff.mp hc)
  rw [d.getElem?_slots] at hi
  obtain ⟨c', hc', hs⟩ := map_eq_some_iff.mp hi
  have hno := hn d hd _ (d.mem_fragments.mpr ⟨i, c', hc', rfl⟩)
  simp [hno] at hs

/-- Datagrams that were split into at least two fragments come back. Whatever order and repetition
the fragments arrive in, as long as nothing expires or is evicted: an answer is nothing or the whole
datagram of the fragment that just arrived; until all fragments of a datagram have arrived the
answers are nothing, and the last missing one brings the datagram; and when each fragment arrived
once no group stays behind. -/
theorem reassembly_inverts_split (limits : ReassemblyLimits) (family : List Datagram)
    (hids : (family.map Datagram.id).Nodup) (htwo : ∀ d ∈ family, 2 ≤ d.fragments.length)
    (script : List (Bytes × Nat)) (hscript : ∀ x ∈ script, ∃ d ∈ family, x.1 ∈ d.fragments)
    (hquiet : (new limits).Undisturbed script) :
    ∃ r outs, (new limits).insertAll script = .ok (r, outs) ∧
      (∀ d ∈ family, ∀ pre x post, script = pre ++ x :: post → x.1 ∈ d.fragments →
        (outs[pre.length]? = some (.ok none) ∨ outs[pre.length]? = some (.ok (some d.plaintext))) ∧
        ((¬∀ y ∈ d.fragments, y ∈ pre.map Prod.fst) → outs[pre.length]? =
          some (.ok (if ∀ y ∈ d.fragments, y ∈ pre.map Prod.fst ∨ y = x.1 then some d.plaintext else none)))) ∧
      ((script.map Prod.fst).Perm (family.flatMap Datagram.fragments) → r.groups = []) := by
  have htwo' : ∀ d ∈ family, 2 ≤ d.chunks.length := fun d hd => d.length_fragments ▸ htwo d hd
  obtain ⟨r, hr, hlv, hrp⟩ := Represents.insertAll hids htwo' script hscript
    (.init family limits) (by simp [Live, new]) hquiet
  have ho : ∀ {l : List (Bytes × Nat)}, (∀ y ∈ l, y ∈ script) →
      ∀ x ∈ l.map Prod.fst, ∃ d ∈ family, x ∈ d.fragments := by
    intro l hl x hx
    obtain ⟨y, hy, rfl⟩ := mem_map.mp hx
    exact hscript y (hl y hy)
  refine ⟨r, _, hr, ?_, fun hp => hrp.groups_eq_nil hlv fun d hd => ?_⟩
  · rintro d hd pre x post rfl hx
    have hot : (run (arrive family) [] (pre.map Prod.fst ++ x.1 :: post.map Prod.fst)).2[
        (pre.map Prod.fst).length]? = _ := getElem?_outputs _ _ _ _
    rw [length_map] at hot
    rw [map_append, map_cons, getElem?_map, hot, (arrive_eq hids hd hx _).1]
    refine ⟨?_, fun hm => ?_⟩
    · split_ifs
      · exact .inr rfl
      · exact .inl rfl
    · have hi := mem_waiting_iff hids _ (ho fun y hy => by simp [hy]) hd hm
      have hs : Completes d (run (arrive family) [] (pre.map Prod.fst)).1 x.1 ↔
          ∀ y ∈ d.fragments, y ∈ pre.map Prod.fst ∨ y = x.1 :=
        forall₂_congr fun y hy => by rw [hi y hy]
      simp only [hs, map_some]
  · refine not_mem_waiting hids _ (ho fun y hy => hy) ?_ hd fun y hy => ?_
    · exact hp.nodup_iff.mpr (nodup_fragments hids)
    · exact hp.mem_iff.mpr (mem_flatMap.mpr ⟨d, hd, hy⟩)

def twoBytes : Datagram :=
  { id := 7, plaintext := [1, 2], maxChunk := 1,
    fragments := [[0, 0, 0, 7, 0, 2, 1], [0, 0, 0, 7, 1, 2, 2]], split := rfl }

def twoOthers : Datagram :=
  { id := 8, plaintext := [3, 4], maxChunk := 1,
    fragments := [[0, 0, 0, 8, 0, 2, 3], [0, 0, 0, 8, 1, 2, 4]], split := rfl }

/-- Two datagrams in turns, the first one from its end on and with a fragment repeated. -/
def interleaved : List (Bytes × Nat) :=
  [([0, 0, 0, 7, 1, 2, 2], 0), ([0, 0, 0, 8, 0, 2, 3], 1), ([0, 0, 0, 7, 1, 2, 2], 2), ([0, 0, 0, 7, 0, 2, 1], 3),
    ([0, 0, 0, 8, 1, 2, 4], 4)]

theorem undisturbed_interleaved : (new ⟨2, 3, 5⟩).Undisturbed interleaved := by
  refine ⟨⟨by simp [new], by simp [new], by decide⟩, ?_⟩
  rintro _ _ ⟨⟩
  refine ⟨⟨by decide, by decide, by decide⟩, ?_⟩
  rintro _ _ ⟨⟩
  refine ⟨⟨by decide, by decide, by decide⟩, ?_⟩
  rintro _ _ ⟨⟩
  refine ⟨⟨by decide, by decide, by decide⟩, ?_⟩
  rintro _ _ ⟨⟩
  exact ⟨⟨by decide, by decide, by decide⟩, fun _ _ _ => trivial⟩

theorem reassembly_inverts_split_interleaved :
    ∃ r outs, (new ⟨2, 3, 5⟩).insertAll interleaved = .ok (r, outs) ∧ outs[3]? = some (.ok (some [1, 2])) ∧
      outs[4]? = some (.ok (some [3, 4])) := by
  obtain ⟨r, outs, hr, ho, -⟩ := reassembly_inverts_split ⟨2, 3, 5⟩ [twoBytes, twoOthers] (by decide)
    (by decide) interleaved (by decide) undisturbed_interleaved
  have hfirst := (ho twoBytes (by simp) (interleaved.take 3) _ (interleaved.drop 4) rfl (by decide)).2 (by decide)
  have hsecond := (ho twoOthers (by simp) (interleaved.take 4) _ [] rfl (by decide)).2 (by decide)
  exact ⟨r, outs, hr, hfirst, hsecond⟩

/-- A datagram that fits one chunk is split into a single fragment, which every receiver refuses
although nothing expires and nothing is evicted; so is a chunk longer than the byte limit. -/
theorem single_fragment_rejected :
    splitFragments 7 [1] 1 = .ok [[0, 0, 0, 7, 0, 1, 1]] ∧
      (new ⟨8, 100, 3⟩).Undisturbed [([0, 0, 0, 7, 0, 1, 1], 0)] ∧
      (new ⟨8, 100, 3⟩).insertAll [([0, 0, 0, 7, 0, 1, 1], 0)] = .ok (new ⟨8, 100, 3⟩, [.error .length]) ∧
    splitFragments 7 [1, 2, 3] 2 = .ok [[0, 0, 0, 7, 0, 2, 1, 2], [0, 0, 0, 7, 1, 2, 3]] ∧
      (new ⟨8, 1, 3⟩).insertAll [([0, 0, 0, 7, 0, 2, 1, 2], 0)] = .ok (new ⟨8, 1, 3⟩, [.error .length]) := by
  refine ⟨rfl, ⟨⟨by simp [new], by simp [new], by decide⟩, fun _ _ _ => trivial⟩, rfl, rfl, rfl⟩

end Reassembler

end RustReality.Handoff.Udp
