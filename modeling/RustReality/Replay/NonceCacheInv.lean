import RustReality.Replay.NonceCache

/-!
# What every interleaving of a nonce cache keeps

The counter is the number of stored entries, the slots reserved by calls that have yet to insert, and
the removals that have yet to be subtracted. A call that has looked its nonce up holds the lock of the
nonce's shard until it inserts, so the nonce is still absent then.
-/

namespace RustReality.Replay
open NonceStore NonceTask Function Option Expiry Interleaving

variable {ι ε : Type}

/-! ### What a call in progress holds -/

namespace SweepPhase

def holds : SweepPhase → Option (Fin replayShards)
  | .locked _ shard => some shard
  | _ => none

def pending : SweepPhase → Nat
  | .next removed _ => removed
  | .locked removed _ => removed
  | .subtract removed => removed
  | .done _ => 0

end SweepPhase

variable {nonce : Nonce}

namespace NonceTask

def holds : NonceTask ε → Option (Fin replayShards)
  | .reserve call =>
    match call.phase with
    | .called | .lock | .returned _ => none
    | .sweep phase => phase.holds
    | _ => some (nonceShard call.nonce)
  | .purge _ phase => phase.holds

/-- What the counter holds on behalf of the call and the shards do not show. -/
def pending : NonceTask ε → Nat
  | .reserve call =>
    match call.phase with
    | .subtract removed => removed
    | .insert => 1
    | .sweep phase => phase.pending
    | _ => 0
  | .purge _ phase => phase.pending

def checked : NonceTask ε → Option Nonce
  | .reserve call =>
    match call.phase with
    | .load | .tryReserve | .loadSlot | .exchange _ | .insert => some call.nonce
    | _ => none
  | .purge _ _ => none

def Idle : NonceTask ε → Prop
  | .reserve call => call.phase = .called ∨ ∃ result, call.phase = .returned result
  | .purge _ phase => phase = .next 0 0 ∨ ∃ removed, phase = .done removed

theorem Idle.pending {task : NonceTask ε} (h : task.Idle) : task.pending = 0 := by
  cases task with
  | reserve call =>
    rcases h with h | ⟨result, h⟩ <;> simp [NonceTask.pending, h]
  | purge now phase =>
    rcases h with rfl | ⟨removed, rfl⟩ <;> rfl

theorem holds_of_checked {task : NonceTask ε} (h : task.checked = some nonce) :
    task.holds = some (nonceShard nonce) := by
  cases task with
  | reserve call =>
    rcases call with ⟨own, now, sweptAll, phase⟩
    cases phase <;> simp_all [checked, holds]
  | purge now phase => cases h

end NonceTask

variable {store : NonceStore ι} {shards shards' : Fin replayShards → Mutex ι NonceShard}
  {history : List (ι × NonceEvent ε)} {event : Option (NonceEvent ε)} {shard : Fin replayShards}
  {errors : ReplayErrors ε} {i : ι} {answers : Answers} {now : Nat}

theorem reserveStep_sweep {policy : ReplayPolicy}
    {sweptAll : Bool} {phase : SweepPhase} (hd : ¬∃ removed, phase = .done removed) :
    reserveStep errors policy i answers store ⟨nonce, now, sweptAll, .sweep phase⟩ =
      (sweepStep now i store phase).map fun (store, phase, event) =>
        (store, ⟨nonce, now, sweptAll, .sweep phase⟩, event) := by
  cases phase with
  | done removed => exact absurd ⟨removed, rfl⟩ hd
  | _ => rfl

/-! ### The invariant -/

def held (shards : Fin replayShards → Mutex ι NonceShard) (nonce : Nonce) : Option Nat :=
  (shards (nonceShard nonce)).value.lookup nonce

/-- An admitted nonce is stored with its expiry, or its shard has been purged at or after that. -/
def Retained (retention : Nat) (shards : Fin replayShards → Mutex ι NonceShard) (history : List (ι × NonceEvent ε)) :
    Prop :=
  ∀ before i nonce now after, history = before ++ (i, .admitted nonce now) :: after →
    (∃ j time, (j, .purged (nonceShard nonce) time) ∈ after ∧ now + retention ≤ time) ∨
      held shards nonce = some (now + retention)

structure NonceInv [Fintype ι] (policy : ReplayPolicy) (config : Config ι (NonceStore ι) (NonceTask ε))
    (history : List (ι × NonceEvent ε)) : Prop where
  locks : Owned holds config.shared.shards config.tasks
  exact : ∀ shard, Exact nonceRecords (config.shared.shards shard).value
  fresh : ∀ i nonce, (config.tasks i).checked = some nonce → held config.shared.shards nonce = none
  count : config.shared.used = ∑ shard, (config.shared.shards shard).value.size + ∑ i, (config.tasks i).pending
  bounded : config.shared.used ≤ policy.capacity
  retained : Retained policy.retention config.shared.shards history

variable {retention : Nat}

theorem Retained.same (h : Retained retention shards history)
    (hh : ∀ nonce expiry, held shards nonce = some expiry → held shards' nonce = some expiry) :
    Retained retention shards' history := by
  intro before i nonce now after hhs
  rcases h before i nonce now after hhs with hp | hk
  · exact .inl hp
  · exact .inr (hh nonce _ hk)

theorem Retained.append {event : NonceEvent ε} (h : Retained retention shards history)
    (hh : ∀ nonce expiry, held shards nonce = some expiry → held shards' nonce = some expiry ∨
      ∃ time, event = .purged (nonceShard nonce) time ∧ expiry ≤ time)
    (ha : ∀ nonce now, event = .admitted nonce now → held shards' nonce = some (now + retention)) :
    Retained retention shards' (history ++ [(i, event)]) := by
  intro before j nonce now after hhs
  rcases concat_eq_append_cons hhs with ⟨rfl, he, rfl⟩ | ⟨front, rfl, hf⟩
  · cases he
    exact .inr (ha nonce now rfl)
  · rcases h before j nonce now front hf with ⟨k, time, hm, hle⟩ | hk
    · exact .inl ⟨k, time, List.mem_append_left _ hm, hle⟩
    · rcases hh nonce _ hk with hk' | ⟨time, rfl, hle⟩
      · exact .inr hk'
      · exact .inl ⟨i, time, by simp, hle⟩

def Quiet (event : Option (NonceEvent ε)) : Prop := event = none ∨ ∃ nonce now error, event = some (.refused nonce now error)

theorem Retained.quiet (h : Retained retention shards history)
    (hh : ∀ nonce, held shards' nonce = held shards nonce) (he : Quiet event) :
    Retained retention shards' (history ++ (event.map (i, ·)).toList) := by
  have hkp : ∀ nonce expiry, held shards nonce = some expiry → held shards' nonce = some expiry :=
    fun nonce expiry hk => (hh nonce).trans hk
  rcases he with rfl | ⟨nonce, now, error, rfl⟩
  · simpa using h.same hkp
  · refine h.append (fun nonce expiry hk => .inl (hkp nonce expiry hk)) ?_
    rintro nonce now ⟨⟩

theorem held_setShard_same (store : NonceStore ι) (shard : Fin replayShards) (owner : Option ι) (nonce : Nonce) :
    held (store.setShard shard owner (store.shards shard).value).shards nonce = held store.shards nonce := by
  by_cases hs : nonceShard nonce = shard
  · subst hs
    simp [held, setShard]
  · simp [held, setShard, update_of_ne hs]

theorem lock_eq_some {store' : NonceStore ι} (h : store.lock i shard = some store') :
    (store.shards shard).owner = none ∧ store' = store.setShard shard (some i) (store.shards shard).value := by
  unfold lock at h
  split at h
  · next hf =>
    cases h
    exact ⟨hf, rfl⟩
  · cases h

theorem Retained.purge (h : Retained retention store.shards history) (i : ι)
    (shard : Fin replayShards) (owner : Option ι) (now : Nat) :
    Retained retention (store.setShard shard owner (purgeNonceShard (store.shards shard).value now).1).shards
      (history ++ [(i, .purged shard now)]) := by
  refine h.append ?_ (by rintro nonce time ⟨⟩)
  intro nonce expiry hk
  by_cases hs : nonceShard nonce = shard
  · subst hs
    rcases @purge_lookup _ _ _ _ nonceRecords (store.shards (nonceShard nonce)).value now nonce with
      hsm | ⟨-, value, record, hv, hds, hd⟩
    · left
      simpa [held, setShard, purgeNonceShard, hsm] using hk
    · right
      have he : some expiry = some value := hk.symm.trans hv
      cases he
      have hr : expiry = record.1 := by simpa [nonceRecords] using hds
      exact ⟨now, rfl, hr ▸ hd⟩
  · left
    simpa [held, setShard, update_of_ne hs] using hk

section Step

variable [Fintype ι] [DecidableEq ι] {policy : ReplayPolicy} {config : Config ι (NonceStore ι) (NonceTask ε)}
  {history history' : List (ι × NonceEvent ε)}
  {task : NonceTask ε}

theorem NonceInv.keep (h : NonceInv policy config history) {used : Nat} (hh : task.holds = (config.tasks i).holds)
    (hc : ∀ nonce, task.checked = some nonce → held config.shared.shards nonce = none)
    (hcount : used + (config.tasks i).pending = config.shared.used + task.pending) (hb : used ≤ policy.capacity)
    (hr : Retained policy.retention config.shared.shards history') :
    NonceInv policy ⟨{ config.shared with used }, Function.update config.tasks i task⟩ history' := by
  refine ⟨h.locks.keep hh, h.exact, ?_, ?_, hb, hr⟩
  · intro j nonce hj
    change (Function.update config.tasks i task j).checked = some nonce at hj
    by_cases hij : j = i
    · subst hij
      rw [update_self] at hj
      exact hc nonce hj
    · rw [update_of_ne hij] at hj
      exact h.fresh j nonce hj
  · have hs := sum_update pending config.tasks i task
    have ho := h.count
    dsimp only
    omega

/-- A call goes on: no lock, no entry and no slot changes hands. -/
theorem NonceInv.turn (h : NonceInv policy config history) (hh : task.holds = (config.tasks i).holds)
    (hp : task.pending = (config.tasks i).pending)
    (hc : ∀ nonce, task.checked = some nonce → (config.tasks i).checked = some nonce) (he : Quiet event) :
    NonceInv policy ⟨config.shared, Function.update config.tasks i task⟩ (history ++ (event.map (i, ·)).toList) :=
  h.keep hh (fun nonce hn => h.fresh i nonce (hc nonce hn)) (by rw [hp]) h.bounded
    (h.retained.quiet (fun _ => rfl) he)

theorem NonceInv.touch (h : NonceInv policy config history) {owner : Option ι} {value : NonceShard}
    (hf : (config.shared.shards shard).owner = none ∨ (config.shared.shards shard).owner = some i)
    (hh : (config.tasks i).holds = none ∨ (config.tasks i).holds = some shard)
    (hown : (owner = some i ∧ task.holds = some shard) ∨ task.holds = none) (he : Exact nonceRecords value)
    (hc : task.checked = none)
    (hcount : value.size + task.pending = (config.shared.shards shard).value.size + (config.tasks i).pending)
    (hr : Retained policy.retention (config.shared.setShard shard owner value).shards history') :
    NonceInv policy ⟨config.shared.setShard shard owner value, Function.update config.tasks i task⟩ history' := by
  refine ⟨h.locks.touch hf hh hown, ?_, ?_, ?_, h.bounded, hr⟩
  · intro other
    by_cases hot : other = shard
    · subst hot
      simpa [setShard] using he
    · simpa [setShard, update_of_ne hot] using h.exact other
  · intro j nonce hj
    change (Function.update config.tasks i task j).checked = some nonce at hj
    by_cases hij : j = i
    · subst hij
      rw [update_self, hc] at hj
      cases hj
    · rw [update_of_ne hij] at hj
      -- The task that has checked the nonce owns its shard, so this is another one.
      have hne : nonceShard nonce ≠ shard := by
        rintro rfl
        have ho := h.locks j _ (holds_of_checked hj)
        rcases hf with hf | hf
        · rw [hf] at ho
          cases ho
        · rw [hf] at ho
          exact hij (Option.some.inj ho).symm
      have hfr := h.fresh j nonce hj
      simpa [held, setShard, update_of_ne hne] using hfr
  · have ht := sum_update pending config.tasks i task
    have hs := sum_update (fun cell : Mutex ι NonceShard => cell.value.size) config.shared.shards shard ⟨owner, value⟩
    have hol := h.count
    show config.shared.used = ∑ s, ((Function.update config.shared.shards shard ⟨owner, value⟩ s).value.size) +
      ∑ j, (Function.update config.tasks i task j).pending
    dsimp only at hs
    omega

/-! ### The kinds of actions on a shard -/

theorem NonceInv.lock (h : NonceInv policy config history) (hl : config.shared.lock i shard = some store)
    (hh : (config.tasks i).holds = none) (hholds : task.holds = some shard) (hc : task.checked = none)
    (hp : task.pending = (config.tasks i).pending) :
    NonceInv policy ⟨store, Function.update config.tasks i task⟩ history := by
  rcases lock_eq_some hl with ⟨hf, rfl⟩
  refine h.touch (.inl hf) (.inl hh) (.inl ⟨rfl, hholds⟩) (h.exact shard) hc (by rw [hp]) ?_
  refine h.retained.same ?_
  intro nonce expiry hk
  rwa [held_setShard_same]

theorem NonceInv.unlock (h : NonceInv policy config history) (hh : (config.tasks i).holds = some shard)
    (hholds : task.holds = none) (hc : task.checked = none) (hp : task.pending = (config.tasks i).pending)
    (he : Quiet event) :
    NonceInv policy ⟨config.shared.unlock shard, Function.update config.tasks i task⟩
      (history ++ (event.map (i, ·)).toList) :=
  h.touch (.inr (h.locks i shard hh)) (.inr hh) (.inr hholds) (h.exact shard) hc (by rw [hp])
    (h.retained.quiet (held_setShard_same config.shared shard none) he)

/-- Purging a locked shard: the call owes the counter the number of entries that went. -/
theorem NonceInv.purge (h : NonceInv policy config history)
    {owner : Option ι} (hh : (config.tasks i).holds = some shard)
    (ho : (owner = some i ∧ task.holds = some shard) ∨ task.holds = none) (hc : task.checked = none)
    (hp : task.pending = (config.tasks i).pending + (purgeNonceShard (config.shared.shards shard).value now).2) :
    NonceInv policy
      ⟨config.shared.setShard shard owner (purgeNonceShard (config.shared.shards shard).value now).1,
        Function.update config.tasks i task⟩ (history ++ [(i, .purged shard now)]) := by
  have hs := @purge_size _ _ _ _ nonceRecords (config.shared.shards shard).value now
  refine h.touch (.inr (h.locks i shard hh)) (.inr hh) ho ((h.exact shard).purge now) hc ?_
    (h.retained.purge i shard owner now)
  unfold purgeNonceShard at hp ⊢
  omega

omit [DecidableEq ι] in
theorem NonceInv.pending_le (h : NonceInv policy config history) (i : ι) :
    (config.tasks i).pending ≤ config.shared.used := by
  have hle : (config.tasks i).pending ≤ ∑ j, (config.tasks j).pending :=
    Finset.single_le_sum (f := fun j => (config.tasks j).pending) (fun _ _ => Nat.zero_le _) (Finset.mem_univ i)
  have hc := h.count
  omega

theorem NonceInv.fetchSub (h : NonceInv policy config history) {removed : Nat}
    (hr : (config.tasks i).pending = removed) (hh : task.holds = (config.tasks i).holds)
    (hc : task.checked = none) (hp : task.pending = 0) :
    NonceInv policy ⟨config.shared.fetchSub removed, Function.update config.tasks i task⟩ history := by
  have hle := h.pending_le i
  have hlt := policy.capacity_lt
  have hb := h.bounded
  have hu : (config.shared.used + 2 ^ 64 - removed) % 2 ^ 64 = config.shared.used - removed := by omega
  refine h.keep hh ?_ ?_ ?_ h.retained
  · rw [hc]
    rintro nonce ⟨⟩
  · omega
  · omega

/-! ### Sweeping -/

theorem NonceInv.sweep (h : NonceInv policy config history) (wrap : SweepPhase → NonceTask ε)
    (hholds : ∀ phase, (wrap phase).holds = phase.holds) (hpend : ∀ phase, (wrap phase).pending = phase.pending)
    (hnone : ∀ phase, (wrap phase).checked = none) {phase phase' : SweepPhase}
    (ht : config.tasks i = wrap phase) (hs : sweepStep now i config.shared phase = some (store, phase', event)) :
    NonceInv policy ⟨store, Function.update config.tasks i (wrap phase')⟩ (history ++ (event.map (i, ·)).toList) := by
  have hol : (config.tasks i).holds = phase.holds := by rw [ht, hholds]
  have ho : (config.tasks i).pending = phase.pending := by rw [ht, hpend]
  cases phase with
  | next removed shard =>
    by_cases hlt : shard < replayShards
    · rw [sweepStep, dif_pos hlt] at hs
      rcases map_eq_some_iff.1 hs with ⟨locked, hl, hrs⟩
      cases hrs
      have hlc : (wrap (.locked removed ⟨shard, hlt⟩)).holds = some ⟨shard, hlt⟩ := hholds _
      simpa using h.lock hl hol hlc (hnone _) ((hpend _).trans ho.symm)
    · rw [sweepStep, dif_neg hlt] at hs
      cases hs
      exact h.turn ((hholds _).trans hol.symm) ((hpend _).trans ho.symm) (by simp [hnone]) (.inl rfl)
  | locked removed shard =>
    cases hs
    refine h.purge hol (.inr (hholds _)) (hnone _) ?_
    rw [ho, hpend]
    rfl
  | subtract removed =>
    cases hs
    have hsm : (wrap (.done removed)).holds = (config.tasks i).holds := (hholds _).trans hol.symm
    by_cases hr : removed = 0
    · subst hr
      exact h.turn hsm ((hpend _).trans ho.symm) (by simp [hnone]) (.inl rfl)
    · rw [if_pos hr]
      have ho : (config.tasks i).pending = removed := ho
      simpa using h.fetchSub ho hsm (hnone _) (hpend _)
  | done removed => cases hs

/-! ### Reserving -/

theorem perm_insertNonce (shard : NonceShard) (nonce : Nonce) (expiresAt : Nat) :
    (insertNonce shard nonce expiresAt).expirations.Perm ((expiresAt, nonce) :: shard.expirations) :=
  List.perm_orderedInsert SoonerNonce (expiresAt, nonce) shard.expirations

theorem NonceInv.insert (h : NonceInv policy config history)
    (hc : (config.tasks i).checked = some nonce) (ho : (config.tasks i).pending = 1)
    (hholds : task.holds = none) (hd : task.checked = none) (hp : task.pending = 0) :
    NonceInv policy
      ⟨config.shared.setShard (nonceShard nonce) none
          (insertNonce (config.shared.shards (nonceShard nonce)).value nonce (now + policy.retention)),
        Function.update config.tasks i task⟩ (history ++ [(i, .admitted nonce now)]) := by
  have hh := holds_of_checked hc
  have ha := h.fresh i nonce hc
  have hn : nonce ∉ (config.shared.shards (nonceShard nonce)).value.entries := AList.lookup_eq_none.1 ha
  have hsz := size_insert hn (now + policy.retention)
  refine h.touch (.inr (h.locks i _ hh)) (.inr hh) (.inr hholds) ?_ hd ?_ ?_
  · exact (h.exact _).insert (perm_insertNonce _ nonce _) (by simp [nonceRecords]) hn
  · rw [hp, ho]
    exact hsz
  · refine h.retained.append ?_ ?_
    · intro other expiry hk
      left
      have hne : other ≠ nonce := by
        rintro rfl
        rw [ha] at hk
        cases hk
      by_cases hs : nonceShard other = nonceShard nonce
      · simpa [held, setShard, hs, insertNonce, Shard.lookup, AList.lookup_insert_ne hne] using hk
      · simpa [held, setShard, update_of_ne hs] using hk
    · rintro other time ⟨⟩
      simp [held, setShard, insertNonce, Shard.lookup]

theorem NonceInv.reserve (h : NonceInv policy config history) {call call' : ReserveCall ε}
    (ht : config.tasks i = .reserve call)
    (hs : reserveStep errors policy i answers config.shared call = some (store, call', event)) :
    NonceInv policy ⟨store, Function.update config.tasks i (.reserve call')⟩ (history ++ (event.map (i, ·)).toList) := by
  rcases call with ⟨nonce, now, sweptAll, phase⟩
  have hho := congrArg holds ht
  have ho := congrArg pending ht
  have hch := congrArg checked ht
  have hrt : Retained policy.retention config.shared.shards
      (history ++ ((none : Option (NonceEvent ε)).map (i, ·)).toList) := by simpa using h.retained
  have hre : ∀ error : ε, Quiet (some (NonceEvent.refused nonce now error)) :=
    fun error => .inr ⟨nonce, now, error, rfl⟩
  cases phase with
  | called =>
    dsimp only [reserveStep] at hs
    split at hs
    · cases hs
      exact h.turn hho.symm ho.symm (by rintro _ ⟨⟩) (.inl rfl)
    · cases hs
      exact h.turn hho.symm ho.symm (by rintro _ ⟨⟩) (hre _)
  | lock =>
    dsimp only [reserveStep] at hs
    rcases map_eq_some_iff.1 hs with ⟨locked, hl, hr⟩
    cases hr
    have hn : NonceInv policy
        ⟨store, Function.update config.tasks i (.reserve ⟨nonce, now, sweptAll, .purge⟩)⟩ history :=
      h.lock hl hho rfl rfl ho.symm
    simpa using hn
  | purge =>
    dsimp only [reserveStep] at hs
    by_cases hrm : (purgeNonceShard (config.shared.shards (nonceShard nonce)).value now).2 = 0
    · rw [if_neg (not_not.2 hrm)] at hs
      cases hs
      exact h.purge hho (.inl ⟨rfl, rfl⟩) rfl (by rw [ho, hrm]; rfl)
    · rw [if_pos hrm] at hs
      cases hs
      refine h.purge hho (.inl ⟨rfl, rfl⟩) rfl ?_
      rw [ho]
      exact (Nat.zero_add _).symm
  | subtract removed =>
    cases hs
    have hn : NonceInv policy
        ⟨config.shared.fetchSub removed, Function.update config.tasks i (.reserve ⟨nonce, now, sweptAll, .lookUp⟩)⟩
        history := h.fetchSub ho hho.symm rfl rfl
    simpa using hn
  | lookUp =>
    dsimp only [reserveStep] at hs
    split at hs
    · cases hs
      exact h.unlock hho rfl rfl ho.symm (hre _)
    · next ha =>
      cases hs
      refine h.keep hho.symm ?_ (by rw [ho]; rfl) h.bounded hrt
      rintro other ⟨⟩
      simpa [held] using ha
  | load =>
    dsimp only [reserveStep] at hs
    split at hs
    · split at hs
      · cases hs
        exact h.unlock hho rfl rfl ho.symm (hre _)
      · cases hs
        exact h.unlock hho rfl rfl ho.symm (.inl rfl)
    · cases hs
      exact h.turn hho.symm ho.symm (fun _ => hch.trans) (.inl rfl)
  | tryReserve =>
    dsimp only [reserveStep] at hs
    split at hs
    · cases hs
      exact h.turn hho.symm ho.symm (fun _ => hch.trans) (.inl rfl)
    · cases hs
      exact h.unlock hho rfl rfl ho.symm (hre _)
  | loadSlot =>
    cases hs
    exact h.turn hho.symm ho.symm (fun _ => hch.trans) (.inl rfl)
  | exchange observed =>
    dsimp only [reserveStep] at hs
    split at hs
    · split at hs
      · cases hs
        exact h.unlock hho rfl rfl ho.symm (hre _)
      · cases hs
        exact h.unlock hho rfl rfl ho.symm (.inl rfl)
    · next hro =>
      split at hs
      · next hsm =>
        cases hs
        refine h.keep hho.symm ?_ ?_ (by omega) hrt
        · rintro other ⟨⟩
          exact h.fresh i nonce hch
        · rw [ho, hsm.1]
          rfl
      · cases hs
        exact h.turn hho.symm ho.symm (fun _ => hch.trans) (.inl rfl)
  | insert =>
    cases hs
    exact h.insert hch ho rfl rfl rfl
  | sweep phase =>
    by_cases hd : ∃ removed, phase = .done removed
    · rcases hd with ⟨removed, rfl⟩
      cases hs
      exact h.turn hho.symm ho.symm (by rintro _ ⟨⟩) (.inl rfl)
    · rw [reserveStep_sweep hd] at hs
      rcases map_eq_some_iff.1 hs with ⟨⟨next, phase', event'⟩, hsw, hr⟩
      cases hr
      exact h.sweep (fun phase => .reserve ⟨nonce, now, sweptAll, .sweep phase⟩) (fun _ => rfl) (fun _ => rfl)
        (fun _ => rfl) ht hsw
  | returned result => cases hs

theorem NonceInv.step (h : NonceInv policy config history)
    (hs : nonceStep errors policy i answers config.shared (config.tasks i) = some (store, task, event)) :
    NonceInv policy ⟨store, Function.update config.tasks i task⟩ (history ++ (event.map (i, ·)).toList) := by
  cases ht : config.tasks i with
  | reserve call =>
    rw [ht] at hs
    rcases map_eq_some_iff.1 hs with ⟨⟨next, call', event'⟩, hrs, hr⟩
    cases hr
    exact h.reserve ht hrs
  | purge now phase =>
    rw [ht] at hs
    rcases map_eq_some_iff.1 hs with ⟨⟨next, phase', event'⟩, hsw, hr⟩
    cases hr
    exact h.sweep (.purge now) (fun _ => rfl) (fun _ => rfl) (fun _ => rfl) ht hsw

omit [DecidableEq ι] in
theorem NonceInv.start (policy : ReplayPolicy) (calls : ι → NonceCall) :
    NonceInv policy (nonceStart calls : Config ι (NonceStore ι) (NonceTask ε)) [] := by
  refine ⟨?_, fun _ => exact_empty, ?_, ?_, Nat.zero_le _, ?_⟩
  · intro i shard hh
    cases hc : calls i <;> simp [nonceStart, hc, NonceCall.task, holds, SweepPhase.holds] at hh
  · intro i nonce hch
    cases hc : calls i <;> simp [nonceStart, hc, NonceCall.task, checked] at hch
  · have hp : ∀ i, ((calls i).task : NonceTask ε).pending = 0 := by
      intro i
      cases calls i <;> rfl
    simp [nonceStart, hp, Shard.size, Shard.empty]
  · intro before i nonce now after hhs
    simp at hhs

theorem nonceInv_run (errors : ReplayErrors ε) (policy : ReplayPolicy) (calls : ι → NonceCall)
    (schedule : List (ι × Answers)) :
    NonceInv policy (nonceRun errors policy calls schedule).1 (nonceRun errors policy calls schedule).2 :=
  execute_invariant (fun _ _ _ _ _ _ _ h hs => h.step hs) (.start policy calls) schedule

end Step

end RustReality.Replay
