import RustReality.Handoff.Udp.FragRoundTrip

/-!
# Collecting one datagram among others

A receiver holds groups of other datagrams when the fragments of a new one arrive. Others may expire
or be evicted to make room; the group being collected is not, as long as its fragments arrive within
the timeout: it is the last one to be evicted, and alone it fits.
-/

namespace RustReality.Handoff.Udp.Reassembler
open List

/-- A receiver that has taken the fragments in `pending` of a datagram, the first one at `started`. -/
structure Collects (d : Datagram) (pending : List Bytes) (started : Nat) (r : Reassembler) : Prop where
  inv : r.Inv
  groups_pos : 0 < r.limits.maxGroups
  fits : maxDataPlaintextLen ≤ r.limits.maxBytes
  unknown : pending = [] → ∀ g ∈ r.groups, g.id ≠ d.id
  known : pending ≠ [] → ∃ g ∈ r.groups, Holds g d pending ∧ g.started = started

variable {d : Datagram} {pending : List Bytes} {started : Nat} {r : Reassembler}

theorem Collects.discards (h : Collects d pending started r) {gone : List Group} {r' : Reassembler}
    (hd : Discards gone r r') (hk : ∀ g ∈ gone, Holds g d pending → g.started = started → False) :
    Collects d pending started r' where
  inv := h.inv.discards hd
  groups_pos := by
    rw [hd.limits]
    exact h.groups_pos
  fits := by
    rw [hd.limits]
    exact h.fits
  unknown := fun hn g hg => h.unknown hn g (hd.groups.mem_iff.mpr (mem_append_right _ hg))
  known := by
    intro hne
    obtain ⟨g, hg, hh, hs⟩ := h.known hne
    exact ⟨g, hd.mem hg fun hgn => hk g hgn hh hs, hh, hs⟩

theorem Collects.locate (h : Collects d pending started r) (ht : 2 ≤ d.chunks.length) (now : Nat) :
    ∃ r' i g, r.locate d.id d.chunks.length now = .ok (r', i) ∧ r'.Inv ∧ r'.limits = r.limits ∧
      r'.groups[i]? = some g ∧ Holds g d pending ∧ g.started = if pending = [] then now else started := by
  rw [Reassembler.locate]
  by_cases hn : pending = []
  · have hps : r.position d.id = none := by
      cases hp : r.position d.id with
      | none => rfl
      | some i =>
        obtain ⟨g, hi, hid⟩ := position_some hp
        exact absurd hid (h.unknown hn g (mem_of_getElem? hi))
    obtain ⟨gone, r₁, he, hd, hlt⟩ := evictLoop_spec _ h.inv.accounted h.groups_pos (Nat.le_refl _)
    have hnw : ∀ g ∈ r₁.groups, g.id ≠ d.id := fun g hg =>
      h.unknown hn g (hd.groups.mem_iff.mpr (mem_append_right _ hg))
    refine ⟨{ r₁ with groups := r₁.groups ++ [Group.start d.id d.chunks.length now] }, r₁.groups.length,
      Group.start d.id d.chunks.length now, ?_, ?_, hd.limits, by simp, ?_, by simp [hn, Group.start]⟩
    · simp only [hps, he]
      rfl
    · exact (h.inv.discards hd).push ht now hnw (by rwa [hd.limits])
    · rw [hn]
      exact holds_start (by simp) now
  · obtain ⟨g, hg, hh, hs⟩ := h.known hn
    obtain ⟨i, hp⟩ := position_of_mem hg
    obtain ⟨g', hi, hid'⟩ := position_some hp
    obtain rfl := h.inv.eq_of_id (mem_of_getElem? hi) hg hid'
    rw [hh.id] at hp
    refine ⟨r, i, g', by simp only [hp], h.inv, rfl, hi, hh, ?_⟩
    rw [if_neg hn]
    exact hs

theorem makeRoom_own (h : r.Inv) {own : Group} (hown : own ∈ r.groups) {len : Nat}
    (hfits : own.bytes + len ≤ r.limits.maxBytes) :
    ∃ gone r', makeRoom own.id len r.groups.length r = .ok (r', true) ∧ Discards gone r r' ∧
      r'.bytes + len ≤ r.limits.maxBytes ∧ own ∈ r'.groups := by
  obtain ⟨gone, r', room, hmk, hd, hr, hf⟩ :=
    makeRoom_spec own.id len r.groups.length h.accounted hown rfl (Nat.le_refl _)
  cases room with
  | true =>
    obtain ⟨hb, ho⟩ := hr rfl
    exact ⟨gone, r', hmk, hd, hb, hd.mem hown fun hgn => ho own hgn rfl⟩
  | false =>
    -- no other group was left, so the bytes held were those of this group
    obtain ⟨others, alone, ho, hm, hid, hbg⟩ := hf rfl
    have hi := h.discards ho
    have hal : ∀ g ∈ alone.groups, g = own := fun g hg => hi.eq_of_id hg hm (hid g hg)
    have hn : alone.groups.Nodup := hi.ids.of_map _
    have hs : alone.groups = [own] := by
      have hp := (perm_ext_iff_of_nodup hn (nodup_singleton own)).2 fun g => by
        rw [mem_singleton]
        exact ⟨hal g, fun heq => heq ▸ hm⟩
      exact perm_singleton.1 hp
    have hb : alone.bytes = own.bytes := by
      have ha := hi.accounted
      rw [Accounted, hs] at ha
      simpa using ha
    omega

theorem Collects.insert (h : Collects d pending started r) (ht : 2 ≤ d.chunks.length) {x : Bytes}
    (hx : x ∈ d.fragments) (hnew : x ∉ pending) {now : Nat}
    (hfresh : pending ≠ [] → now - started < r.limits.timeout) :
    ∃ r' out, r.insert x now = .ok (r', .ok out) ∧ r'.Inv ∧ r'.limits = r.limits ∧
      ((∀ y ∈ d.fragments, y ∈ pending ++ [x]) → out = some d.plaintext) ∧
      ((¬∀ y ∈ d.fragments, y ∈ pending ++ [x]) →
        out = none ∧ Collects d (pending ++ [x]) (if pending = [] then now else started) r') := by
  obtain ⟨i, c, hc, rfl⟩ := d.mem_fragments.mp hx
  have hln := d.chunk_length_le hc
  have hpr := d.parseFragment_fragment r.limits ht hc (Nat.le_trans hln h.fits)
  -- expired groups go, but not the one that is being collected
  obtain ⟨gone, r₁, he, hd, hdu⟩ := expire_spec h.inv.accounted now
  have h₁ : Collects d pending started r₁ := by
    refine h.discards hd fun g hgn hho hst => ?_
    have hol := hdu g hgn
    by_cases hn : pending = []
    · have hmm := hd.groups.mem_iff.mpr (mem_append_left _ hgn)
      exact h.unknown hn g hmm hho.id
    · have hy := hfresh hn
      rw [← hst] at hy
      omega
  obtain ⟨r₂, position, g, hlc, h₂, hl₂, hp, hho, hst⟩ := h₁.locate ht now
  have hg := mem_of_getElem? hp
  obtain ⟨hs, hle⟩ := hho.slot (h₂.groups g hg) hc hnew
  have hf := hho.fill hc
  have hl : r₂.limits = r.limits := hl₂.trans hd.limits
  obtain ⟨others, r₃, hm, hd₃, hr, hg₃⟩ := @makeRoom_own r₂ h₂ g hg c.length (by
    rw [hl]
    exact Nat.le_trans hle h.fits)
  have h₃ := h₂.discards hd₃
  obtain ⟨r', out, rest, hso, hi, hl', -, hpe, hcs⟩ := store_spec h₃ (f := d.parsed ht hc) hg₃
    hho.id hs hle (by rw [hd₃.limits]; exact hr)
  have hin : r.insert (d.fragment i c) now = .ok (r', .ok out) := by
    have hac : r₂.accept position (d.parsed ht hc) = .ok (r', .ok out) := by
      have hco : g.count = (d.parsed ht hc).count := hho.count
      have hs' : g.chunks[(d.parsed ht hc).index]? = some none := hs
      have hle' : ¬ g.bytes + (d.parsed ht hc).chunk.length > maxDataPlaintextLen := Nat.not_lt.2 hle
      have hm' : makeRoom (d.parsed ht hc).id (d.parsed ht hc).chunk.length r₂.groups.length r₂ =
          .ok (r₃, true) := by
        rw [show (d.parsed ht hc).id = g.id from hho.id.symm]
        exact hm
      simp only [accept, hp, hco, hs', hle', hm', ne_eq, not_true_eq_false, if_false]
      exact hso
    simp only [Reassembler.insert, he, Bind.bind, Except.bind, hd.limits, hpr]
    rw [show (d.parsed ht hc).id = d.id from rfl, show (d.parsed ht hc).count = d.chunks.length from rfl, hlc]
    exact hac
  refine ⟨r', out, hin, hi, hl'.trans (hd₃.limits.trans hl), ?_, ?_⟩
  · intro ha
    rcases hcs with ⟨hic, -, -⟩ | ⟨-, ho, -⟩
    · exact absurd ha (hf.incomplete ((h₃.groups g hg₃).fill hs hle hic))
    · rw [ho]
      show some (g.fill i c).chunks.reduceOption.flatten = _
      rw [hf.chunks, d.flatten_slots ha]
  · intro hpa
    rcases hcs with ⟨-, ho, hgr⟩ | ⟨hfl, -, -⟩
    · refine ⟨ho, hi, ?_, ?_, by simp, fun _ => ?_⟩
      · rw [hl', hd₃.limits, hl]
        exact h.groups_pos
      · rw [hl', hd₃.limits, hl]
        exact h.fits
      · exact ⟨g.fill i c, hgr.mem_iff.mpr (.head _), hf, hst⟩
    · exact absurd (hf.complete_iff.1 ((h₃.groups g hg₃).fill_complete hs hfl)) hpa

end RustReality.Handoff.Udp.Reassembler
