import RustReality.Handoff.Udp.Frag
import RustReality.Lib.Mealy

/-!
# Resource invariants of the reassembler

Every way a group leaves the reassembler without being delivered (expiry, eviction, inconsistency)
is one relation, `Discards`: the groups that went and the ones that stayed are the old groups, and
the byte counter fell by what went. `Inv` is kept by `Discards`, by a new empty group and by a
stored chunk; no call faults in a state with `Inv`, and so every script of calls runs to its end.
-/

namespace RustReality.Handoff.Udp
open List

/-! ### One group -/

def storedBytes (chunks : List (Option Bytes)) : Nat := (chunks.reduceOption.map List.length).sum

/-- A stored group: its counters agree with its slots, and it is not complete. -/
structure Group.Inv (g : Group) : Prop where
  two_le_count : 2 ≤ g.count
  length_chunks : g.chunks.length = g.count
  received_eq : g.received = g.chunks.reduceOption.length
  bytes_eq : g.bytes = storedBytes g.chunks
  bytes_le : g.bytes ≤ maxDataPlaintextLen
  incomplete : g.received < g.count

variable {id : UInt32} {i : Nat} {g : Group}

namespace Group

theorem Inv.start {count : Nat} (h : 2 ≤ count) (now : Nat) :
    (Group.start id count now).Inv where
  two_le_count := h
  length_chunks := by simp [Group.start]
  received_eq := by simp [Group.start]
  bytes_eq := by simp [Group.start, storedBytes]
  bytes_le := by simp [Group.start]
  incomplete := by
    show 0 < count
    omega

variable {chunks : List (Option Bytes)}

theorem set_none_split (h : chunks[i]? = some none)
    (c : Bytes) : ∃ p q, chunks = p ++ none :: q ∧ chunks.set i (some c) = p ++ some c :: q := by
  obtain ⟨hi, hn⟩ := List.getElem?_eq_some_iff.mp h
  refine ⟨chunks.take i, chunks.drop (i + 1), ?_, ?_⟩
  · rw [← hn, ← drop_eq_getElem_cons hi, take_append_drop]
  · rw [set_eq_take_append_cons_drop, if_pos hi]

theorem storedBytes_set (h : chunks[i]? = some none)
    (c : Bytes) : storedBytes (chunks.set i (some c)) = storedBytes chunks + c.length := by
  obtain ⟨p, q, ho, hn⟩ := set_none_split h c
  rw [hn, ho]
  simp only [storedBytes, reduceOption_append, reduceOption_cons_of_none,
    reduceOption_cons_of_some, map_append, map_cons, sum_append, sum_cons]
  omega

theorem reduceOption_length_set (h : chunks[i]? = some none)
    (c : Bytes) : (chunks.set i (some c)).reduceOption.length = chunks.reduceOption.length + 1 := by
  obtain ⟨p, q, ho, hn⟩ := set_none_split h c
  rw [hn, ho]
  simp only [reduceOption_append, reduceOption_cons_of_none,
    reduceOption_cons_of_some, length_append, length_cons]
  omega

theorem Inv.fill (h : g.Inv) {c : Bytes} (hs : g.chunks[i]? = some none)
    (hle : g.bytes + c.length ≤ maxDataPlaintextLen) (hi : (g.fill i c).received < g.count) :
    (g.fill i c).Inv where
  two_le_count := h.two_le_count
  length_chunks := by simp [Group.fill, h.length_chunks]
  received_eq := by simp [Group.fill, reduceOption_length_set hs, h.received_eq]
  bytes_eq := by simp [Group.fill, storedBytes_set hs, h.bytes_eq]
  bytes_le := hle
  incomplete := hi

theorem Inv.fill_complete (h : g.Inv) {c : Bytes}
    (hs : g.chunks[i]? = some none) (hf : ¬(g.fill i c).received < g.count) :
    ∀ slot ∈ (g.fill i c).chunks, slot.isSome := by
  have hl : (g.fill i c).chunks.reduceOption.length = (g.fill i c).chunks.length := by
    have hle := reduceOption_length_le (g.fill i c).chunks
    simp only [Group.fill, reduceOption_length_set hs, length_set, h.length_chunks,
      h.received_eq] at hle hf ⊢
    omega
  rw [reduceOption_length_eq_iff] at hl
  exact hl

theorem Inv.none_mem (h : g.Inv) : none ∈ g.chunks := by
  by_contra hno
  have ha : ∀ slot ∈ g.chunks, slot.isSome := fun slot hs => by
    cases slot with
    | none => exact absurd hs hno
    | some c => rfl
  have hl := (reduceOption_length_eq_iff).mpr ha
  have hi := h.incomplete
  rw [h.received_eq, hl, h.length_chunks] at hi
  exact Nat.lt_irrefl _ hi

end Group

namespace Reassembler

/-! ### Searching the groups -/

variable {r : Reassembler} {gone : List Group}

theorem oldest_some {keep : Group → Bool} (h : r.oldest keep = some i) :
    ∃ g, r.groups[i]? = some g ∧ keep g = true := by
  obtain ⟨⟨g, j⟩, hp, rfl⟩ := Option.map_eq_some_iff.mp h
  obtain ⟨hm, hk⟩ := mem_filter.mp (argmin_mem hp)
  exact ⟨g, mem_zipIdx_iff_getElem?.mp hm, hk⟩

theorem oldest_none {keep : Group → Bool} (h : r.oldest keep = none) :
    ∀ g ∈ r.groups, keep g = false := by
  intro g hg
  obtain ⟨i, hi⟩ := mem_iff_getElem?.mp hg
  rw [oldest, Option.map_eq_none_iff, argmin_eq_none, filter_eq_nil_iff] at h
  simpa using h (g, i) (mem_zipIdx_iff_getElem?.mpr hi)

theorem position_some (h : r.position id = some i) :
    ∃ g, r.groups[i]? = some g ∧ g.id = id := by
  obtain ⟨hi, hid, -⟩ := findIdx?_eq_some_iff_getElem.mp h
  exact ⟨_, getElem?_eq_getElem hi, by simpa using hid⟩

theorem position_none (h : r.position id = none) :
    ∀ g ∈ r.groups, g.id ≠ id := by
  intro g hg
  simpa using findIdx?_eq_none_iff.mp h g hg

theorem position_of_mem (h : g ∈ r.groups) :
    ∃ i, r.position g.id = some i := by
  cases hp : r.position g.id with
  | some i => exact ⟨i, rfl⟩
  | none => exact absurd rfl (position_none hp g h)

/-! ### Discarding groups -/

/-- The byte counter is the sum over the groups, so that no removal can underflow. -/
def Accounted (r : Reassembler) : Prop := r.bytes = (r.groups.map Group.bytes).sum

structure Discards (gone : List Group) (r r' : Reassembler) : Prop where
  groups : r.groups.Perm (gone ++ r'.groups)
  bytes : r.bytes = (gone.map Group.bytes).sum + r'.bytes
  limits : r'.limits = r.limits
  dropped : r'.dropped = r.dropped + gone.length

theorem Discards.refl (r : Reassembler) : Discards [] r r := ⟨.refl _, by simp, rfl, rfl⟩

theorem Discards.trans {gone' : List Group} {r' r'' : Reassembler} (h : Discards gone r r')
    (h' : Discards gone' r' r'') : Discards (gone ++ gone') r r'' where
  groups := h.groups.trans (by rw [append_assoc]; exact h'.groups.append_left gone)
  bytes := by
    rw [h.bytes, h'.bytes, map_append, sum_append]
    omega
  limits := h'.limits.trans h.limits
  dropped := by
    rw [h'.dropped, h.dropped, length_append]
    omega

variable {r' : Reassembler}

theorem Discards.accounted (h : Discards gone r r') (hr : r.Accounted) : r'.Accounted := by
  have hs := (h.groups.map Group.bytes).sum_eq
  have hb := h.bytes
  simp only [Accounted, map_append, sum_append] at hr hs ⊢
  omega

theorem Discards.mem (h : Discards gone r r') (hg : g ∈ r.groups) (hk : g ∉ gone) : g ∈ r'.groups := by
  rcases mem_append.mp (h.groups.mem_iff.mp hg) with hgn | hs
  · exact absurd hgn hk
  · exact hs

theorem Discards.length (h : Discards gone r r') :
    r.groups.length = gone.length + r'.groups.length := by
  simpa using h.groups.length_eq

theorem remove_spec (hr : r.Accounted) (hi : r.groups[i]? = some g) :
    ∃ rest, r.remove i = .ok { r with groups := rest, bytes := r.bytes - g.bytes } ∧
      r.groups.Perm (g :: rest) ∧ r.bytes = g.bytes + (r.bytes - g.bytes) := by
  obtain ⟨hlt, rfl⟩ := List.getElem?_eq_some_iff.mp hi
  obtain ⟨rest, hs, hp⟩ := Vec.swapRemove_spec hlt
  have hle : (r.groups[i]).bytes ≤ r.bytes := by
    have hsm := (hp.map Group.bytes).sum_eq
    rw [map_cons, sum_cons] at hsm
    rw [Accounted] at hr
    omega
  refine ⟨rest, ?_, hp, by omega⟩
  simp only [remove, hs]
  exact if_neg (by omega)

theorem drop_spec (hr : r.Accounted) (hi : r.groups[i]? = some g) :
    ∃ r', r.drop i = .ok r' ∧ Discards [g] r r' := by
  obtain ⟨rest, hrm, hp, hb⟩ := remove_spec hr hi
  refine ⟨{ r with groups := rest, bytes := r.bytes - g.bytes, dropped := r.dropped + 1 }, ?_, ?_⟩
  · simp only [drop, hrm]
    rfl
  · exact ⟨hp, by simpa using hb, rfl, rfl⟩

/-! ### The loops -/

theorem expireLoop_spec (now fuel : Nat) (hr : r.Accounted) (index : Nat)
    (hf : r.groups.length ≤ fuel + index) :
    ∃ gone r', expireLoop now fuel r index = .ok r' ∧ Discards gone r r' ∧
      ∀ g ∈ gone, r.limits.timeout ≤ now - g.started := by
  induction fuel generalizing r index with
  | zero =>
    refine ⟨[], r, ?_, .refl r, by simp⟩
    exact if_neg (by omega)
  | succ fuel ih =>
    rw [expireLoop]
    cases hi : r.groups[index]? with
    | none => exact ⟨[], r, rfl, .refl r, by simp⟩
    | some g =>
      by_cases ho : now - g.started ≥ r.limits.timeout
      · obtain ⟨r', hdr, hd⟩ := drop_spec hr hi
        have hln := hd.length
        rw [length_singleton] at hln
        obtain ⟨gone, r'', hl, hd', hdu⟩ := ih (hd.accounted hr) index (by omega)
        refine ⟨[g] ++ gone, r'', ?_, hd.trans hd', ?_⟩
        · simp only [ho, if_true, hdr]
          exact hl
        · rw [hd.limits] at hdu
          simpa using ⟨ho, hdu⟩
      · obtain ⟨gone, r'', hl, hd', hdu⟩ := ih hr (index + 1) (by omega)
        refine ⟨gone, r'', ?_, hd', hdu⟩
        simp only [ho, if_false]
        exact hl

theorem expire_spec (hr : r.Accounted) (now : Nat) :
    ∃ gone r', r.expire now = .ok r' ∧ Discards gone r r' ∧ ∀ g ∈ gone, r.limits.timeout ≤ now - g.started :=
  expireLoop_spec now _ hr 0 (Nat.le_refl _)

theorem evictOldest_spec (hr : r.Accounted) (hne : 0 < r.groups.length) :
    ∃ g r', r.evictOldest = .ok r' ∧ Discards [g] r r' := by
  rw [evictOldest]
  cases h : r.oldest fun _ => true with
  | none =>
    have hm := getElem_mem hne
    exact absurd (oldest_none h _ hm) (by simp)
  | some i =>
    obtain ⟨g, hi, -⟩ := oldest_some h
    obtain ⟨r', hd, hds⟩ := drop_spec hr hi
    exact ⟨g, r', hd, hds⟩

theorem evictLoop_spec (fuel : Nat) (hr : r.Accounted) (hp : 0 < r.limits.maxGroups) (hfuel : r.groups.length ≤ fuel) :
    ∃ gone r', evictLoop fuel r = .ok r' ∧ Discards gone r r' ∧ r'.groups.length < r.limits.maxGroups := by
  induction fuel generalizing r with
  | zero => exact ⟨[], r, if_neg (by omega), .refl r, by omega⟩
  | succ fuel ih =>
    rw [evictLoop]
    by_cases hf : r.groups.length ≥ r.limits.maxGroups
    · obtain ⟨g, r', he, hd⟩ := evictOldest_spec hr (by omega)
      have hln := hd.length
      rw [length_singleton] at hln
      obtain ⟨gone, r'', hl, hd', hlt⟩ :=
        ih (hd.accounted hr) (by rw [hd.limits]; exact hp) (by omega)
      refine ⟨[g] ++ gone, r'', ?_, hd.trans hd', by rwa [hd.limits] at hlt⟩
      simp only [hf, if_true, he]
      exact hl
    · exact ⟨[], r, if_neg hf, .refl r, by omega⟩

/-- Making room for a chunk terminates. Where it succeeds, only other groups had to go; where it
fails, no other group was left. -/
theorem makeRoom_spec (id : UInt32) (len fuel : Nat) (hr : r.Accounted)
    {own : Group} (hown : own ∈ r.groups) (hid : own.id = id) (hfuel : r.groups.length ≤ fuel) :
    ∃ gone r' room, makeRoom id len fuel r = .ok (r', room) ∧ Discards gone r r' ∧
      (room = true → r'.bytes + len ≤ r.limits.maxBytes ∧ ∀ g ∈ gone, g.id ≠ id) ∧
      (room = false → ∃ others alone, Discards others r alone ∧ own ∈ alone.groups ∧
        (∀ g ∈ alone.groups, g.id = id) ∧ r.limits.maxBytes < alone.bytes + len) := by
  induction fuel generalizing r with
  | zero =>
    have := length_pos_of_mem hown
    omega
  | succ fuel ih =>
    rw [makeRoom]
    by_cases hf : r.bytes + len > r.limits.maxBytes
    · simp only [hf, if_true]
      cases ho : r.oldest fun group => group.id != id with
      | some other =>
        obtain ⟨g, hi, hne⟩ := oldest_some ho
        have hg : g.id ≠ id := by simpa using hne
        obtain ⟨r', hdr, hd⟩ := drop_spec hr hi
        have hln := hd.length
        rw [length_singleton] at hln
        have hs : own ∈ r'.groups := hd.mem hown (by
          rw [mem_singleton]
          rintro rfl
          exact hg hid)
        obtain ⟨gone, r'', room, hl, hd', hrm, hfl⟩ := ih (hd.accounted hr) hs (by omega)
        rw [hd.limits] at hrm hfl
        refine ⟨[g] ++ gone, r'', room, ?_, hd.trans hd', fun h => ?_, fun h => ?_⟩
        · simp only [hdr]
          exact hl
        · refine ⟨(hrm h).1, fun x hx => ?_⟩
          rcases mem_append.mp hx with hx | hx
          · rw [mem_singleton.mp hx]
            exact hg
          · exact (hrm h).2 x hx
        · obtain ⟨others, alone, hot, hrs⟩ := hfl h
          exact ⟨[g] ++ others, alone, hd.trans hot, hrs⟩
      | none =>
        obtain ⟨i, hp⟩ := position_of_mem hown
        rw [hid] at hp
        obtain ⟨g, hi, -⟩ := position_some hp
        obtain ⟨r', hdr, hd⟩ := drop_spec hr hi
        refine ⟨[g], r', false, ?_, hd, by simp, fun _ => ⟨[], r, .refl r, hown, fun x hx => ?_, hf⟩⟩
        · simp only [hp, hdr]
          rfl
        · simpa using oldest_none ho x hx
    · exact ⟨[], r, true, if_neg hf, .refl r, fun _ => ⟨by omega, by simp⟩, by simp⟩

/-! ### The invariant -/

structure Inv (r : Reassembler) : Prop where
  groups : ∀ g ∈ r.groups, g.Inv
  ids : (r.groups.map Group.id).Nodup
  accounted : r.Accounted
  bytes_le : r.bytes ≤ r.limits.maxBytes
  groups_le : r.groups.length ≤ r.limits.maxGroups

theorem Inv.init (limits : ReassemblyLimits) : (new limits).Inv := by
  constructor <;> simp [new, Accounted]

theorem Inv.discards (h : r.Inv) (hd : Discards gone r r') :
    r'.Inv where
  groups g hg := h.groups g (hd.groups.mem_iff.mpr (mem_append_right _ hg))
  ids := by
    have hi := (hd.groups.map Group.id).nodup_iff.mp h.ids
    rw [map_append] at hi
    exact hi.of_append_right
  accounted := hd.accounted h.accounted
  bytes_le := by
    have := hd.bytes
    have := h.bytes_le
    rw [hd.limits]
    omega
  groups_le := by
    have := hd.length
    have := h.groups_le
    rw [hd.limits]
    omega

theorem Inv.push (h : r.Inv) {count : Nat} (hc : 2 ≤ count)
    (now : Nat) (hn : ∀ g ∈ r.groups, g.id ≠ id) (hr : r.groups.length < r.limits.maxGroups) :
    Inv { r with groups := r.groups ++ [Group.start id count now] } where
  groups g hg := by
    rcases mem_append.mp hg with hg | hg
    · exact h.groups g hg
    · rw [mem_singleton.mp hg]
      exact .start hc now
  ids := by
    simp only [map_append, map_cons, map_nil]
    refine nodup_append.mpr ⟨h.ids, nodup_singleton _, ?_⟩
    intro a ha b hb
    obtain ⟨g, hg, rfl⟩ := mem_map.mp ha
    rw [mem_singleton.mp hb]
    exact hn g hg
  accounted := by
    have := h.accounted
    simp only [Accounted, map_append, sum_append] at this ⊢
    simpa [Group.start] using this
  bytes_le := h.bytes_le
  groups_le := by
    simp only [length_append, length_singleton]
    omega

theorem Inv.eq_of_id (h : r.Inv) {g g' : Group} (hg : g ∈ r.groups)
    (hg' : g' ∈ r.groups) (hid : g.id = g'.id) : g = g' :=
  inj_on_of_nodup_map h.ids hg hg' hid

/-! ### Storing a chunk -/

theorem perm_set {l others : List Group} (hi : l[i]? = some g)
    (hp : l.Perm (g :: others)) (g' : Group) : (l.set i g').Perm (g' :: others) := by
  have hs : (g :: l.set i g').Perm (g :: g' :: others) :=
    calc (g :: l.set i g').Perm (l ++ [g']) := (Vec.perm_cons_set hi g').symm
      List.Perm _ (g' :: l) := perm_append_singleton g' l
      List.Perm _ (g' :: g :: others) := hp.cons g'
      List.Perm _ (g :: g' :: others) := .swap _ _ _
  exact hs.cons_inv

/-- What `store` does to the group of its fragment: the chunk is kept, or the group was complete
with it and leaves the reassembler as a datagram. The other groups are not touched. -/
theorem store_spec (h : r.Inv) {f : Fragment} (hg : g ∈ r.groups)
    (hid : g.id = f.id) (hslot : g.chunks[f.index]? = some none) (hle : g.bytes + f.chunk.length ≤ maxDataPlaintextLen)
    (hroom : r.bytes + f.chunk.length ≤ r.limits.maxBytes) :
    ∃ r' out others, r.store f = .ok (r', .ok out) ∧ r'.Inv ∧ r'.limits = r.limits ∧
      r'.dropped = r.dropped ∧ r.groups.Perm (g :: others) ∧
      (((g.fill f.index f.chunk).received < g.count ∧ out = none ∧
          r'.groups.Perm (g.fill f.index f.chunk :: others)) ∨
        (¬(g.fill f.index f.chunk).received < g.count ∧ out = some (g.fill f.index f.chunk).whole ∧
          r'.groups.Perm others)) := by
  obtain ⟨i, hp⟩ := position_of_mem hg
  rw [hid] at hp
  obtain ⟨g₀, hi, hid₀⟩ := position_some hp
  obtain rfl := h.eq_of_id (mem_of_getElem? hi) hg (hid₀.trans hid.symm)
  obtain ⟨others, -, hpr, -⟩ := remove_spec h.accounted hi
  have hind : f.index < g₀.chunks.length := (List.getElem?_eq_some_iff.mp hslot).1
  set g' := g₀.fill f.index f.chunk
  have hs : (r.groups.set i g').Perm (g' :: others) := perm_set hi hpr g'
  let r₁ : Reassembler :=
    { r with groups := r.groups.set i g', bytes := r.bytes + f.chunk.length }
  have ha₁ : r₁.Accounted := by
    have ho := (hpr.map Group.bytes).sum_eq
    have hn := (hs.map Group.bytes).sum_eq
    have ha := h.accounted
    simp only [Accounted, r₁, map_cons, sum_cons] at ho hn ha ⊢
    rw [hn, ha, ho]
    show _ = g₀.bytes + f.chunk.length + _
    omega
  have hot : ∀ x ∈ others, x.Inv := fun x hx => h.groups x (hpr.mem_iff.mpr (.tail _ hx))
  have his : (g₀.id :: others.map Group.id).Nodup := (hpr.map Group.id).nodup_iff.mp h.ids
  have hst : r.store f = if g'.received < g₀.count then .ok (r₁, .ok none) else
      r₁.remove i >>= fun r => pure (r, .ok (some g'.whole)) := by
    simp only [store, hp, hi, ge_iff_le, Nat.not_le.mpr hind, if_false]
    rfl
  by_cases hin : g'.received < g₀.count
  · refine ⟨r₁, none, others, by rw [hst, if_pos hin], ?_, rfl, rfl, hpr, .inl ⟨hin, rfl, hs⟩⟩
    have hgg : g'.Inv := (h.groups g₀ hg).fill hslot hle hin
    exact
      { groups := fun x hx => by
          rcases mem_cons.mp (hs.mem_iff.mp hx) with rfl | hx
          · exact hgg
          · exact hot x hx
        ids := (hs.map Group.id).nodup_iff.mpr his
        accounted := ha₁
        bytes_le := hroom
        groups_le := by
          show (r.groups.set i g').length ≤ _
          rw [length_set]
          exact h.groups_le }
  · have hi₁ : r₁.groups[i]? = some g' := by
      have hlt := (List.getElem?_eq_some_iff.mp hi).1
      simp [r₁, hlt]
    obtain ⟨rest, hre, hpr₁, hbytes₁⟩ := remove_spec ha₁ hi₁
    have hr : rest.Perm others := (hpr₁.symm.trans hs).cons_inv
    let r₂ : Reassembler := { r₁ with groups := rest, bytes := r₁.bytes - g'.bytes }
    refine ⟨r₂, some g'.whole, others, ?_, ?_, rfl, rfl, hpr, .inr ⟨hin, rfl, hr⟩⟩
    · rw [hst, if_neg hin, hre]
      rfl
    · have hd : Discards [g₀] r { r₂ with dropped := r.dropped + 1 } := by
        refine ⟨hpr.trans (hr.symm.cons g₀), ?_, rfl, rfl⟩
        simp only [map_cons, map_nil, sum_cons, sum_nil, r₂, r₁] at hbytes₁ ⊢
        have : g'.bytes = g₀.bytes + f.chunk.length := rfl
        omega
      have hInv := h.discards hd
      exact ⟨hInv.groups, hInv.ids, hInv.accounted, hInv.bytes_le, hInv.groups_le⟩

/-! ### Whole calls -/

theorem accept_spec (h : r.Inv) {f : Fragment} (hi : r.groups[i]? = some g) (hid : g.id = f.id) :
    ∃ r' out, r.accept i f = .ok (r', .ok out) ∧ r'.Inv ∧ r'.limits = r.limits := by
  have hg := mem_of_getElem? hi
  obtain ⟨dropped, hdr, hd⟩ := drop_spec h.accounted hi
  simp only [accept, hi]
  by_cases hc : g.count = f.count
  · have hin : f.index < g.chunks.length := by
      rw [(h.groups g hg).length_chunks, hc]
      exact f.index_lt
    simp only [hc, ne_eq, not_true_eq_false, if_false]
    cases hs : g.chunks[f.index]? with
    | none => exact absurd (getElem?_eq_none_iff.mp hs) (Nat.not_le.mpr hin)
    | some slot =>
      cases slot with
      | some c => exact ⟨r, none, rfl, h, rfl⟩
      | none =>
        by_cases hb : g.bytes + f.chunk.length > maxDataPlaintextLen
        · simp only [hb, if_true, hdr]
          exact ⟨dropped, none, rfl, h.discards hd, hd.limits⟩
        · obtain ⟨gone, r₁, room, hm, hd₁, hr, -⟩ :=
            makeRoom_spec f.id f.chunk.length r.groups.length h.accounted hg hid (Nat.le_refl _)
          simp only [hb, if_false, hm]
          cases room with
          | false => exact ⟨r₁, none, rfl, h.discards hd₁, hd₁.limits⟩
          | true =>
            obtain ⟨hby, ho⟩ := hr rfl
            have hg₁ : g ∈ r₁.groups := hd₁.mem hg fun hgn => ho g hgn hid
            obtain ⟨r₂, out, _, hst, hInv, hl, -⟩ := store_spec (h.discards hd₁) hg₁ hid hs
              (by omega) (by rw [hd₁.limits]; exact hby)
            exact ⟨r₂, out, hst, hInv, hl.trans hd₁.limits⟩
  · simp only [hc, ne_eq, not_false_eq_true, if_true, hdr]
    exact ⟨dropped, none, rfl, h.discards hd, hd.limits⟩

theorem locate_spec (h : r.Inv) (hpos : 0 < r.limits.maxGroups) (id : UInt32)
    {count : Nat} (hc : 2 ≤ count) (now : Nat) :
    ∃ r' i g, r.locate id count now = .ok (r', i) ∧ r'.Inv ∧ r'.limits = r.limits ∧
      r'.groups[i]? = some g ∧ g.id = id := by
  rw [locate]
  cases hp : r.position id with
  | some i =>
    obtain ⟨g, hi, hid⟩ := position_some hp
    exact ⟨r, i, g, rfl, h, rfl, hi, hid⟩
  | none =>
    obtain ⟨gone, r₁, he, hd, hlt⟩ := evictLoop_spec _ h.accounted hpos (Nat.le_refl _)
    have hn : ∀ g ∈ r₁.groups, g.id ≠ id := fun g hg =>
      position_none hp g (hd.groups.mem_iff.mpr (mem_append_right _ hg))
    refine ⟨_, r₁.groups.length, Group.start id count now, by simp only [he]; rfl,
      (h.discards hd).push hc now hn (by rwa [hd.limits]), hd.limits, by simp, rfl⟩

theorem insert_parsed {r₁ : Reassembler} {f : Fragment} {fragment : Bytes} {now : Nat} (he : r.expire now = .ok r₁)
    (hp : parseFragment r₁.limits fragment = .ok f) :
    r.insert fragment now = r₁.locate f.id f.count now >>= fun p => p.1.accept p.2 f := by
  simp only [insert, he, bind, Except.bind, hp]

theorem insert_spec (h : r.Inv) (hp : 0 < r.limits.maxGroups) (fragment : Bytes)
    (now : Nat) :
    ∃ r' out, r.insert fragment now = .ok (r', out) ∧ r'.Inv ∧ r'.limits = r.limits ∧
      ∀ e, out = .error e → parseFragment r.limits fragment = .error e := by
  obtain ⟨gone, r₁, hex, hd, -⟩ := expire_spec h.accounted now
  have h₁ := h.discards hd
  cases hpr : parseFragment r.limits fragment with
  | error e =>
    refine ⟨r₁, .error e, ?_, h₁, hd.limits, fun e' he => by cases he; rfl⟩
    simp only [insert, hex, bind, Except.bind, hd.limits, hpr]
    rfl
  | ok f =>
    obtain ⟨r₂, i, g, hl, h₂, hlim₂, hi, hid⟩ :=
      locate_spec h₁ (by rwa [hd.limits]) f.id f.two_le_count now
    obtain ⟨r₃, out, ha, h₃, hlim₃⟩ := accept_spec h₂ hi hid
    refine ⟨r₃, .ok out, ?_, h₃, hlim₃.trans (hlim₂.trans hd.limits), by simp⟩
    rw [insert_parsed hex (hd.limits ▸ hpr), hl]
    exact ha

/-! ### Scripts of calls -/

inductive Call
  | insert (fragment : Bytes) (now : Nat)
  | expire (now : Nat)
  deriving DecidableEq, Repr

def call (r : Reassembler) : Call → Except Fault (Reassembler × Except UdpPacketError (Option Bytes))
  | .insert fragment now => r.insert fragment now
  | .expire now => do
    let r ← r.expire now
    return (r, .ok none)

/-- An error is an answer to an insert whose fragment header is malformed under the limits. -/
def ErrorIsMalformed (limits : ReassemblyLimits) (i : Call)
    (out : Except UdpPacketError (Option Bytes)) : Prop :=
  ∀ e, out = .error e → ∃ fragment now, i = .insert fragment now ∧
    parseFragment limits fragment = .error e

theorem call_spec {limits : ReassemblyLimits} (hp : 0 < limits.maxGroups) (r : Reassembler) (i : Call)
    (h : r.Inv ∧ r.limits = limits) :
    ∃ r' out, r.call i = .ok (r', out) ∧ (r'.Inv ∧ r'.limits = limits) ∧
      ErrorIsMalformed limits i out := by
  obtain ⟨hInv, rfl⟩ := h
  cases i with
  | insert fragment now =>
    obtain ⟨r', out, hi, hInv', hl, her⟩ := insert_spec hInv hp fragment now
    exact ⟨r', out, hi, ⟨hInv', hl⟩, fun e he => ⟨fragment, now, rfl, her e he⟩⟩
  | expire now =>
    obtain ⟨gone, r', hex, hd, -⟩ := expire_spec hInv.accounted now
    refine ⟨r', .ok none, ?_, ⟨hInv.discards hd, hd.limits⟩, by simp [ErrorIsMalformed]⟩
    simp only [call, hex]
    rfl

/-- Whatever fragments arrive at whatever times, the reassembler stays within its limits: no call
faults (no counter underflows, no loop runs for ever), the byte counter is the number of bytes
held, the limits on bytes and groups hold, ids are unique, and every group is a partial datagram of
admissible size. A group that becomes complete has every chunk, and the only errors are those of
malformed fragment headers. -/
theorem reassembler_within_limits (limits : ReassemblyLimits) (hgroups : 0 < limits.maxGroups)
    (calls : List Call) :
    ∃ r outs, Mealy.runE call (new limits) calls = .ok (r, outs) ∧
      r.bytes = (r.groups.map fun g => storedBytes g.chunks).sum ∧
      r.bytes ≤ limits.maxBytes ∧ r.groups.length ≤ limits.maxGroups ∧
      (r.groups.map Group.id).Nodup ∧
      (∀ g ∈ r.groups, none ∈ g.chunks ∧ g.received < g.count ∧
        storedBytes g.chunks ≤ maxDataPlaintextLen) ∧
      (∀ g ∈ r.groups, ∀ i c, g.chunks[i]? = some none → ¬(g.fill i c).received < g.count →
        ∀ slot ∈ (g.fill i c).chunks, slot.isSome) ∧
      List.Forall₂ (ErrorIsMalformed limits) calls outs := by
  obtain ⟨r, outs, hr, ⟨hInv, hl⟩, hp⟩ :=
    Mealy.runE_invariant (call_spec hgroups) ⟨Inv.init limits, rfl⟩ calls
  refine ⟨r, outs, hr, ?_, ?_, ?_, hInv.ids, fun g hg => ?_, fun g hg i c => ?_, hp⟩
  · rw [hInv.accounted]
    exact congrArg List.sum (map_congr_left fun g hg => (hInv.groups g hg).bytes_eq)
  · exact hl ▸ hInv.bytes_le
  · exact hl ▸ hInv.groups_le
  · have hgg := hInv.groups g hg
    exact ⟨hgg.none_mem, hgg.incomplete, hgg.bytes_eq ▸ hgg.bytes_le⟩
  · exact (hInv.groups g hg).fill_complete

theorem reassembler_within_limits_default :
    0 < 8 ∧ ∃ r outs, Mealy.runE call (new ⟨8, 4 * maxDataPlaintextLen, 3⟩)
      [.insert [0, 0, 0, 1, 0, 2, 7] 0, .expire 1] = .ok (r, outs) ∧ r.bytes ≤ 4 * maxDataPlaintextLen := by
  obtain ⟨r, outs, hr, -, hb, -⟩ := reassembler_within_limits ⟨8, 4 * maxDataPlaintextLen, 3⟩
    (by decide) [.insert [0, 0, 0, 1, 0, 2, 7] 0, .expire 1]
  exact ⟨by decide, r, outs, hr, hb⟩

end Reassembler

end RustReality.Handoff.Udp
