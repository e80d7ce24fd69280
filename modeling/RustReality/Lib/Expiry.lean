import Mathlib

/-!
# Maps whose entries expire

A map together with a queue of expiry records, soonest first. Purging pops the records that are due
and removes an entry if the record describes it; a record may be stale, when the entry it was made
for is gone or has got another deadline. `Covered` says that every entry has a record that describes
it, `Exact` that there are no other records.
-/

namespace RustReality.Expiry
open List Option

structure Shard (K V ρ : Type) where
  entries : AList fun _ : K => V
  expirations : List ρ

/-- What a record says: the entry it is about, when that expires, and which values it was made for. -/
structure Records (K V ρ : Type) where
  key : ρ → K
  deadline : ρ → Nat
  describes : ρ → V → Bool

variable {K V ρ : Type} [DecidableEq K]

def Shard.empty : Shard K V ρ := ⟨∅, []⟩

def Shard.size (shard : Shard K V ρ) : Nat := shard.entries.keys.length

def Shard.lookup (shard : Shard K V ρ) (key : K) : Option V := shard.entries.lookup key

variable (records : Records K V ρ)

/-- Pop the records that are due at an instant, counting the entries that are removed. -/
def purgeLoop (now : Nat) : List ρ → (AList fun _ : K => V) → Nat → Shard K V ρ × Nat
  | [], entries, removed => (⟨entries, []⟩, removed)
  | record :: rest, entries, removed =>
    if records.deadline record ≤ now then
      if (entries.lookup (records.key record)).any (records.describes record) then
        purgeLoop now rest (entries.erase (records.key record)) (removed + 1)
      else purgeLoop now rest entries removed
    else (⟨entries, record :: rest⟩, removed)

def purge (shard : Shard K V ρ) (now : Nat) : Shard K V ρ × Nat :=
  purgeLoop records now shard.expirations shard.entries 0

def Covered (shard : Shard K V ρ) : Prop :=
  ∀ key value, shard.lookup key = some value →
    ∃ record ∈ shard.expirations, records.key record = key ∧ records.describes record value = true

structure Exact (shard : Shard K V ρ) : Prop where
  covered : Covered records shard
  keys : (shard.expirations.map records.key).Perm shard.entries.keys

def Expires (now : Nat) (before after : Option V) : Prop :=
  after = before ∨ after = none ∧ ∃ value record, before = some value ∧ records.describes record value = true ∧
    records.deadline record ≤ now

variable {records}

/-! ### The map -/

variable {entries : AList fun _ : K => V} {value : V}

theorem mem_keys_of_lookup {key : K} (h : entries.lookup key = some value) : key ∈ entries.keys :=
  AList.mem_keys.1 (AList.lookup_isSome.1 (by rw [h]; rfl))

theorem size_erase {key : K} (h : entries.lookup key = some value) :
    (entries.erase key).keys.length + 1 = entries.keys.length := by
  have hm := mem_keys_of_lookup h
  have hp := length_pos_of_mem hm
  rw [AList.keys_erase, length_erase_of_mem hm]
  omega

theorem size_insert {key : K} (h : key ∉ entries) (value : V) :
    (entries.insert key value).keys.length = entries.keys.length + 1 := by
  rw [AList.keys_insert, erase_of_not_mem (mt AList.mem_keys.2 h), length_cons]

theorem size_replace {key : K} {old : V} (h : entries.lookup key = some old)
    (value : V) : (entries.insert key value).keys.length = entries.keys.length := by
  have hs := size_erase h
  rw [AList.keys_erase] at hs
  rw [AList.keys_insert, length_cons, hs]

/-! ### Purging -/

/-- The entries with a property, as `HashMap::retain` leaves them. -/
def retain (keep : V → Bool) (entries : AList fun _ : K => V) : AList fun _ : K => V where
  entries := entries.entries.filter fun entry => keep entry.2
  nodupKeys := entries.nodupKeys.sublist filter_sublist

@[simp] theorem lookup_retain (keep : V → Bool) (entries : AList fun _ : K => V) (key : K) :
    (retain keep entries).lookup key = (entries.lookup key).filter keep := by
  ext value
  rw [← mem_def, AList.mem_lookup_iff, filter_eq_some_iff, ← mem_def, AList.mem_lookup_iff]
  exact mem_filter

omit [DecidableEq K] in
theorem size_retain_le (keep : V → Bool) (entries : AList fun _ : K => V) :
    (retain keep entries).keys.length ≤ entries.keys.length := by
  unfold AList.keys List.keys
  rw [length_map, length_map]
  exact length_filter_le ..

theorem purgeLoop_size (now : Nat) (queue : List ρ) (entries : AList fun _ : K => V) (removed : Nat) :
    (purgeLoop records now queue entries removed).1.size + (purgeLoop records now queue entries removed).2 =
      entries.keys.length + removed := by
  induction queue generalizing entries removed with
  | nil => rfl
  | cons record rest ih =>
    unfold purgeLoop
    split
    · split
      · next hd ha =>
        rcases (any_eq_true _ _).1 ha with ⟨value, hv, _⟩
        rw [ih, ← size_erase hv]
        omega
      · exact ih entries removed
    · rfl

omit [DecidableEq K] in
theorem Expires.refl (now : Nat) (before : Option V) : Expires records now before before := .inl rfl

variable {now : Nat}

omit [DecidableEq K] in
theorem Expires.trans {before middle after : Option V} (hf : Expires records now before middle)
    (hs : Expires records now middle after) : Expires records now before after := by
  rcases hs with rfl | ⟨rfl, hd⟩
  · exact hf
  · rcases hf with rfl | ⟨rfl, hd'⟩
    · exact .inr ⟨rfl, hd⟩
    · exact .inr ⟨rfl, hd'⟩

variable {record : ρ}

theorem expires_erase (hd : records.deadline record ≤ now)
    (ha : (entries.lookup (records.key record)).any (records.describes record) = true) (key : K) :
    Expires records now (entries.lookup key) ((entries.erase (records.key record)).lookup key) := by
  rcases (any_eq_true _ _).1 ha with ⟨value, hv, hds⟩
  by_cases hk : key = records.key record
  · subst hk
    rw [AList.lookup_erase]
    exact .inr ⟨rfl, value, record, hv, hds, hd⟩
  · rw [AList.lookup_erase_ne hk]
    exact .refl now _

theorem purgeLoop_lookup (now : Nat) (queue : List ρ) (entries : AList fun _ : K => V) (removed : Nat) (key : K) :
    Expires records now (entries.lookup key) ((purgeLoop records now queue entries removed).1.lookup key) := by
  induction queue generalizing entries removed with
  | nil => exact .refl now _
  | cons record rest ih =>
    unfold purgeLoop
    split
    · split
      · next hd ha => exact (expires_erase hd ha key).trans (ih _ _)
      · exact ih entries removed
    · exact .refl now _

theorem purge_size (shard : Shard K V ρ) (now : Nat) :
    (purge records shard now).1.size + (purge records shard now).2 = shard.size :=
  purgeLoop_size now shard.expirations shard.entries 0

theorem purge_lookup (shard : Shard K V ρ) (now : Nat) (key : K) :
    Expires records now (shard.lookup key) ((purge records shard now).1.lookup key) :=
  purgeLoop_lookup now shard.expirations shard.entries 0 key

variable {rest : List ρ}

theorem Covered.pop (h : Covered records ⟨entries, record :: rest⟩)
    (hs : ∀ value, entries.lookup (records.key record) = some value → records.describes record value = false) :
    Covered records ⟨entries, rest⟩ := by
  intro key value hl
  rcases h key value hl with ⟨other, hm, rfl, hd⟩
  rcases mem_cons.1 hm with rfl | hm
  · rw [hs value hl] at hd
    cases hd
  · exact ⟨other, hm, rfl, hd⟩

theorem Covered.erase
    (h : Covered records ⟨entries, record :: rest⟩) : Covered records ⟨entries.erase (records.key record), rest⟩ := by
  intro key value hl
  have hne : key ≠ records.key record := by
    rintro rfl
    rw [Shard.lookup, AList.lookup_erase] at hl
    cases hl
  rw [Shard.lookup, AList.lookup_erase_ne hne] at hl
  rcases h key value hl with ⟨other, hm, rfl, hd⟩
  rcases mem_cons.1 hm with rfl | hm
  · exact absurd rfl hne
  · exact ⟨other, hm, rfl, hd⟩

variable {queue : List ρ}

theorem Covered.purgeLoop {removed : Nat}
    (h : Covered records ⟨entries, queue⟩) : Covered records (Expiry.purgeLoop records now queue entries removed).1 := by
  induction queue generalizing entries removed with
  | nil => exact h
  | cons record rest ih =>
    unfold Expiry.purgeLoop
    split
    · split
      · exact ih h.erase
      · next ha =>
        refine ih (h.pop ?_)
        intro value hv
        rw [hv] at ha
        simpa using ha
    · exact h

variable {shard : Shard K V ρ}

theorem Covered.purge (h : Covered records shard) (now : Nat) :
    Covered records (Expiry.purge records shard now).1 := h.purgeLoop

theorem Exact.describes (h : Exact records ⟨entries, record :: rest⟩) :
    (entries.lookup (records.key record)).any (records.describes record) = true := by
  have hm : records.key record ∈ entries.keys := h.keys.subset (by simp)
  rcases isSome_iff_exists.1 (AList.lookup_isSome.2 (AList.mem_keys.2 hm)) with ⟨value, hv⟩
  rcases h.covered _ value hv with ⟨other, ho, hk, hd⟩
  have hn : ((record :: rest).map records.key).Nodup := h.keys.nodup_iff.2 entries.keys_nodup
  rcases mem_cons.1 ho with rfl | ho
  · exact (any_eq_true _ _).2 ⟨value, hv, hd⟩
  · have hr : records.key record ∉ rest.map records.key := (nodup_cons.1 hn).1
    exact absurd (hk ▸ mem_map_of_mem ho) hr

theorem Exact.erase
    (h : Exact records ⟨entries, record :: rest⟩) : Exact records ⟨entries.erase (records.key record), rest⟩ := by
  refine ⟨h.covered.erase, ?_⟩
  rw [AList.keys_erase]
  have hp := h.keys.erase (records.key record)
  rwa [map_cons, erase_cons_head] at hp

theorem Exact.purgeLoop {removed : Nat}
    (h : Exact records ⟨entries, queue⟩) : Exact records (Expiry.purgeLoop records now queue entries removed).1 := by
  induction queue generalizing entries removed with
  | nil => exact h
  | cons record rest ih =>
    unfold Expiry.purgeLoop
    split
    · rw [if_pos h.describes]
      exact ih h.erase
    · exact h

theorem Exact.purge (h : Exact records shard) (now : Nat) :
    Exact records (Expiry.purge records shard now).1 := h.purgeLoop

/-! ### Inserting -/

theorem Covered.insert (h : Covered records shard)
    (hq : queue.Perm (record :: shard.expirations)) (hd : records.describes record value = true) :
    Covered records ⟨shard.entries.insert (records.key record) value, queue⟩ := by
  intro key other hl
  by_cases hk : key = records.key record
  · subst hk
    rw [Shard.lookup, AList.lookup_insert] at hl
    cases hl
    exact ⟨record, hq.mem_iff.2 (mem_cons_self ..), rfl, hd⟩
  · rw [Shard.lookup, AList.lookup_insert_ne hk] at hl
    rcases h key other hl with ⟨found, hm, hf⟩
    exact ⟨found, hq.mem_iff.2 (mem_cons_of_mem _ hm), hf⟩

theorem Exact.insert (h : Exact records shard)
    (hq : queue.Perm (record :: shard.expirations)) (hd : records.describes record value = true)
    (hn : records.key record ∉ shard.entries) :
    Exact records ⟨shard.entries.insert (records.key record) value, queue⟩ := by
  refine ⟨h.covered.insert hq hd, ?_⟩
  rw [AList.keys_insert, erase_of_not_mem (mt AList.mem_keys.2 hn)]
  exact (hq.map records.key).trans (h.keys.cons _)

theorem exact_empty : Exact records (Shard.empty : Shard K V ρ) := by
  constructor
  · rintro key value ⟨⟩
  · exact List.Perm.refl _

end RustReality.Expiry
