import RustReality.Lib.Clock
import RustReality.Lib.Expiry
import RustReality.Vless.Xudp

/-!
# The XUDP global-id map

Every XUDP association with a global id holds a lease on the id's entry in one process-wide map. The
entry belongs to one user for as long as a lease on it lives and for a grace period after the last one
ended. `GlobalInv` is what any sequence of calls in time order keeps.
-/

namespace RustReality.Xudp
open List Option Vless Expiry Clock

def xudpMaxAssociations : Nat := 256

def xudpAssociationIdle : Nat := 60 * nanosPerSecond

inductive XudpOutboundUnsupported
  | nxr
  | handoff
  | block
  | other
  deriving DecidableEq, Repr

inductive XudpSessionError
  | codec (error : XudpCodecError)
  | outbound (error : XudpOutboundUnsupported)
  | io
  | nxrConnect
  | nxrCarrier
  | egressCapabilityChanged
  | associationLimit
  | fdBudgetExhausted
  | missingNewDestination
  | unauthorizedRewrite
  | resolveFailed
  | idleTimeout
  | associationConflict
  | unexpectedVisionDirect
  | handoffUdp
  | handoffUdpOpenTimeout
  | handoffUdpClosed
  deriving DecidableEq, Repr

structure GlobalEntry where
  expire : Nat
  activeLeases : Nat
  owner : UserId
  deriving DecidableEq

abbrev XudpGlobalMap := AList fun _ : XudpGlobalId => GlobalEntry

/-- A lease on an entry; `attached` until it has been released. -/
structure XudpGlobalLease where
  attached : Bool
  id : XudpGlobalId
  deriving DecidableEq

namespace XudpGlobalMap

def due (now : Nat) (entry : GlobalEntry) : Bool := entry.activeLeases == 0 && decide (entry.expire ≤ now)

variable (map : XudpGlobalMap)

def purge (now : Nat) : XudpGlobalMap := retain (fun entry => !due now entry) map

def acquire (id : XudpGlobalId) (owner : UserId) (now : Nat) :
    XudpGlobalMap × Except XudpSessionError XudpGlobalLease :=
  let map := map.purge now
  match map.lookup id with
  | some entry =>
    if entry.owner ≠ owner then (map, .error .associationConflict)
    -- `checked_add` of a `usize`
    else if entry.activeLeases + 1 ≥ 2 ^ 64 then (map, .error .associationLimit)
    else (map.insert id { entry with activeLeases := entry.activeLeases + 1 }, .ok ⟨true, id⟩)
  | none =>
    if map.keys.length ≥ xudpMaxAssociations then (map, .error .associationLimit)
    else (map.insert id ⟨now + xudpAssociationIdle, 1, owner⟩, .ok ⟨true, id⟩)

def releaseLease (id : XudpGlobalId) (now : Nat) : XudpGlobalMap :=
  match map.lookup id with
  | none => map
  | some entry =>
    let activeLeases := (entry.activeLeases + (2 ^ 64 - 1)) % 2 ^ 64
    let expire := if activeLeases = 0 then now + xudpAssociationIdle else entry.expire
    map.insert id { entry with activeLeases, expire }

end XudpGlobalMap

/-- `Drop`: a lease that was released before does nothing. -/
def XudpGlobalLease.drop (lease : XudpGlobalLease) (map : XudpGlobalMap) (now : Nat) : XudpGlobalMap :=
  if lease.attached then map.releaseLease lease.id now else map

/-- The lease is consumed; `dropped` is when it goes out of scope. -/
def XudpGlobalLease.release (lease : XudpGlobalLease) (map : XudpGlobalMap) (now dropped : Nat) : XudpGlobalMap :=
  if lease.attached then XudpGlobalLease.drop { lease with attached := false } (map.releaseLease lease.id now) dropped
  else lease.drop map dropped

/-! ### Runs -/

structure HeldLease where
  lease : XudpGlobalLease
  owner : UserId
  deriving DecidableEq

/-- A lease that has ended: its id, the user that held it, and when it ended. -/
structure EndedLease where
  id : XudpGlobalId
  owner : UserId
  endedAt : Nat
  deriving DecidableEq

structure GlobalState where
  map : XudpGlobalMap
  live : List HeldLease
  ended : List EndedLease

/-- One call; `lease` is a position among the leases that live, and `dropped` is when a released lease goes
out of scope. -/
inductive GlobalCall
  | acquire (id : XudpGlobalId) (owner : UserId) (now : Nat)
  | release (lease now dropped : Nat)
  | drop (lease now : Nat)
  | purge (now : Nat)

namespace GlobalCall

def now : GlobalCall → Nat
  | .acquire _ _ now | .release _ now _ | .drop _ now | .purge now => now

end GlobalCall

namespace GlobalState

def empty : GlobalState := ⟨∅, [], []⟩

variable (state : GlobalState)

def endLease (lease now : Nat) (effect : XudpGlobalLease → XudpGlobalMap) : GlobalState :=
  match state.live[lease]? with
  | none => state
  | some held =>
    { map := effect held.lease
      live := state.live.eraseIdx lease
      ended := ⟨held.lease.id, held.owner, now⟩ :: state.ended }

def step : GlobalCall → GlobalState
  | .acquire id owner now =>
    match state.map.acquire id owner now with
    | (map, .ok lease) => { state with map, live := ⟨lease, owner⟩ :: state.live }
    | (map, .error _) => { state with map }
  | .release lease now dropped => state.endLease lease now fun held => held.release state.map now dropped
  | .drop lease now => state.endLease lease now fun held => held.drop state.map now
  | .purge now => { state with map := state.map.purge now }

def run (calls : List GlobalCall) : GlobalState := calls.foldl step empty

def leases (id : XudpGlobalId) : Nat := state.live.countP fun held => held.lease.id = id

end GlobalState

/-! ### The invariant -/

/-- The number of leases an entry counts; an id without an entry counts none. -/
def activeLeases (entry : Option GlobalEntry) : Nat := entry.elim 0 GlobalEntry.activeLeases

structure GlobalInv (state : GlobalState) (clock : Nat) : Prop where
  size_le : state.map.keys.length ≤ xudpMaxAssociations
  attached : ∀ held ∈ state.live, held.lease.attached = true
  counted : ∀ id, activeLeases (state.map.lookup id) = state.leases id
  bounded : ∀ id, state.leases id < 2 ^ 64
  /-- The owner of an entry holds all leases on it. -/
  owned : ∀ held ∈ state.live, ∀ entry, state.map.lookup held.lease.id = some entry → entry.owner = held.owner
  past : ∀ gone ∈ state.ended, gone.endedAt ≤ clock
  /-- In the grace period of a lease that has ended, the entry still belongs to its user. -/
  grace : ∀ gone ∈ state.ended, clock < gone.endedAt + xudpAssociationIdle →
    ∃ entry, state.map.lookup gone.id = some entry ∧ entry.owner = gone.owner ∧
      (entry.activeLeases = 0 → gone.endedAt + xudpAssociationIdle ≤ entry.expire)

variable {held : HeldLease} {id : XudpGlobalId} {entry : GlobalEntry}

namespace GlobalInv

variable {state : GlobalState} {clock now : Nat}

theorem empty : GlobalInv .empty 0 where
  size_le := Nat.zero_le _
  attached := by rintro _ ⟨⟩
  counted := fun _ => rfl
  bounded := fun _ => Nat.two_pow_pos 64
  owned := by rintro _ ⟨⟩
  past := by rintro _ ⟨⟩
  grace := by rintro _ ⟨⟩

theorem mono (h : GlobalInv state clock) (hle : clock ≤ now) : GlobalInv state now where
  size_le := h.size_le
  attached := h.attached
  counted := h.counted
  bounded := h.bounded
  owned := h.owned
  past gone hg := Nat.le_trans (h.past gone hg) hle
  grace gone hg hlt := h.grace gone hg (Nat.lt_of_le_of_lt hle hlt)

theorem entry_of_live (h : GlobalInv state clock) (hlive : held ∈ state.live) :
    ∃ entry, state.map.lookup held.lease.id = some entry ∧ 1 ≤ entry.activeLeases ∧ entry.owner = held.owner := by
  have hp : 0 < state.leases held.lease.id := by
    exact countP_pos_iff.2 ⟨held, hlive, by simp⟩
  have hc := h.counted held.lease.id
  cases hl : state.map.lookup held.lease.id with
  | none =>
    rw [hl] at hc
    change 0 = _ at hc
    omega
  | some entry =>
    rw [hl] at hc
    change entry.activeLeases = _ at hc
    exact ⟨entry, rfl, by omega, h.owned held hlive entry hl⟩

/-! ### Purging -/

theorem lookup_purge (map : XudpGlobalMap) (now : Nat) (id : XudpGlobalId) :
    (map.purge now).lookup id = (map.lookup id).filter fun entry => !XudpGlobalMap.due now entry :=
  lookup_retain _ _ _

variable {map : XudpGlobalMap}

theorem lookup_purge_of_not_due (hl : map.lookup id = some entry) (hd : XudpGlobalMap.due now entry = false) :
    (map.purge now).lookup id = some entry := by
  rw [lookup_purge, hl, filter_some, hd]
  rfl

theorem lookup_of_lookup_purge (h : (map.purge now).lookup id = some entry) : map.lookup id = some entry := by
  rw [lookup_purge, filter_eq_some_iff] at h
  exact h.1

theorem activeLeases_purge (map : XudpGlobalMap) (now : Nat) (id : XudpGlobalId) :
    activeLeases ((map.purge now).lookup id) = activeLeases (map.lookup id) := by
  cases hl : map.lookup id with
  | none => rw [lookup_purge, hl, filter_none]
  | some entry =>
    cases hd : XudpGlobalMap.due now entry with
    | false => rw [lookup_purge_of_not_due hl hd]
    | true =>
      rw [lookup_purge, hl, filter_some, hd]
      simp only [XudpGlobalMap.due, Bool.and_eq_true, beq_iff_eq] at hd
      exact hd.1.symm

theorem purge (h : GlobalInv state clock) (hle : clock ≤ now) :
    GlobalInv { state with map := state.map.purge now } now where
  size_le := Nat.le_trans (size_retain_le _ _) h.size_le
  attached := h.attached
  counted id := (activeLeases_purge state.map now id).trans (h.counted id)
  bounded := h.bounded
  owned held hlive entry hl := h.owned held hlive entry (lookup_of_lookup_purge hl)
  past gone hg := Nat.le_trans (h.past gone hg) hle
  grace gone hg hlt := by
    obtain ⟨entry, hl, ho, he⟩ := h.grace gone hg (Nat.lt_of_le_of_lt hle hlt)
    refine ⟨entry, lookup_purge_of_not_due hl ?_, ho, he⟩
    -- an entry without a lease expires no earlier than the grace period ends
    cases hd : XudpGlobalMap.due now entry with
    | false => rfl
    | true =>
      simp only [XudpGlobalMap.due, Bool.and_eq_true, beq_iff_eq, decide_eq_true_eq] at hd
      omega

/-! ### Acquiring -/

theorem lease (h : GlobalInv state clock) {owner : UserId} (entry : GlobalEntry)
    (hsize : (state.map.insert id entry).keys.length ≤ xudpMaxAssociations)
    (ha : entry.activeLeases = activeLeases (state.map.lookup id) + 1) (hbound : entry.activeLeases < 2 ^ 64)
    (ho : entry.owner = owner) (hs : ∀ old, state.map.lookup id = some old → old.owner = owner) :
    GlobalInv { state with map := state.map.insert id entry, live := ⟨⟨true, id⟩, owner⟩ :: state.live } clock where
  size_le := hsize
  attached held hl := by
    rcases mem_cons.1 hl with rfl | hl
    · rfl
    · exact h.attached held hl
  counted other := by
    have hc := h.counted other
    by_cases hot : id = other
    · subst hot
      rw [AList.lookup_insert]
      simp only [GlobalState.leases, countP_cons, decide_true, if_true]
      show entry.activeLeases = state.leases id + 1
      omega
    · rw [AList.lookup_insert_ne (Ne.symm hot)]
      simp only [GlobalState.leases, countP_cons, hot, decide_false, Bool.false_eq_true, if_false]
      exact hc
  bounded other := by
    have hc := h.counted id
    have hb := h.bounded other
    by_cases hot : id = other
    · subst hot
      simp only [GlobalState.leases, countP_cons, decide_true, if_true]
      show state.leases id + 1 < 2 ^ 64
      omega
    · simp only [GlobalState.leases, countP_cons, hot, decide_false, Bool.false_eq_true, if_false]
      exact hb
  owned held hl found hlo := by
    by_cases hid : held.lease.id = id
    · rw [hid, AList.lookup_insert] at hlo
      cases hlo
      rcases mem_cons.1 hl with rfl | hl
      · exact ho
      · obtain ⟨old, hol, -, hoo⟩ := h.entry_of_live hl
        rw [hid] at hol
        rw [ho, ← hs old hol, hoo]
    · rw [AList.lookup_insert_ne hid] at hlo
      rcases mem_cons.1 hl with rfl | hl
      · exact absurd rfl hid
      · exact h.owned held hl found hlo
  past := h.past
  grace gone hgone hlt := by
    obtain ⟨old, hlo, hg, he⟩ := h.grace gone hgone hlt
    by_cases hid : gone.id = id
    · rw [hid] at hlo ⊢
      refine ⟨entry, AList.lookup_insert _, ?_, fun hz => by omega⟩
      rw [ho, ← hs old hlo, hg]
    · exact ⟨old, by rw [AList.lookup_insert_ne hid]; exact hlo, hg, he⟩

theorem acquire (h : GlobalInv state clock) (hle : clock ≤ now) (id : XudpGlobalId) (owner : UserId) :
    GlobalInv (state.step (.acquire id owner now)) now := by
  have hpu := h.purge hle
  unfold GlobalState.step XudpGlobalMap.acquire
  dsimp only
  cases hlo : (state.map.purge now).lookup id with
  | some entry =>
    dsimp only
    by_cases how : entry.owner = owner
    · rw [if_neg (not_not.2 how)]
      by_cases hl : entry.activeLeases + 1 ≥ 2 ^ 64
      · rw [if_pos hl]
        exact hpu
      · rw [if_neg hl]
        refine hpu.lease { entry with activeLeases := entry.activeLeases + 1 } ?_ ?_ ?_ how ?_
        · exact Nat.le_trans (Nat.le_of_eq (size_replace hlo _)) hpu.size_le
        · rw [hlo]
          rfl
        · exact Nat.lt_of_not_le hl
        · intro old ho
          rw [hlo] at ho
          cases ho
          exact how
    · rw [if_pos how]
      exact hpu
  | none =>
    by_cases hf : (state.map.purge now).keys.length ≥ xudpMaxAssociations
    · rw [if_pos hf]
      exact hpu
    · rw [if_neg hf]
      refine hpu.lease ⟨now + xudpAssociationIdle, 1, owner⟩ ?_ ?_ (Nat.one_lt_two_pow (by decide)) rfl ?_
      · have hn : id ∉ state.map.purge now := by
          rw [← AList.lookup_eq_none]
          exact hlo
        rw [size_insert hn]
        exact Nat.lt_of_not_le hf
      · rw [hlo]
        rfl
      · intro old ho
        rw [hlo] at ho
        cases ho

/-! ### Ending a lease -/

/-- What the end of a lease makes of its entry: one lease less, and after the last one the grace period. -/
theorem releaseLease_eq
    (hl : map.lookup id = some entry) (hp : 1 ≤ entry.activeLeases) (hb : entry.activeLeases < 2 ^ 64)
    (now : Nat) :
    map.releaseLease id now = map.insert id
      { entry with
        activeLeases := entry.activeLeases - 1
        expire := if entry.activeLeases - 1 = 0 then now + xudpAssociationIdle else entry.expire } := by
  have hw : (entry.activeLeases + (2 ^ 64 - 1)) % 2 ^ 64 = entry.activeLeases - 1 := by omega
  unfold XudpGlobalMap.releaseLease
  rw [hl]
  dsimp only
  rw [hw]

theorem endLease (h : GlobalInv state clock) (hle : clock ≤ now) {position : Nat}
    (hh : state.live[position]? = some held) :
    GlobalInv
      { map := state.map.releaseLease held.lease.id now
        live := state.live.eraseIdx position
        ended := ⟨held.lease.id, held.owner, now⟩ :: state.ended } now := by
  have hm : held ∈ state.live := mem_of_getElem? hh
  obtain ⟨entry, hlo, hp, how⟩ := h.entry_of_live hm
  have hc := h.counted held.lease.id
  rw [hlo] at hc
  change entry.activeLeases = _ at hc
  have hbn := h.bounded held.lease.id
  rw [releaseLease_eq hlo hp (by omega) now]
  obtain ⟨before, after, hl, hr⟩ : ∃ before after, state.live = before ++ held :: after ∧
      state.live.eraseIdx position = before ++ after := by
    obtain ⟨hlt, hgt⟩ := List.getElem?_eq_some_iff.1 hh
    refine ⟨state.live.take position, state.live.drop (position + 1), ?_, eraseIdx_eq_take_drop_succ ..⟩
    rw [← hgt, ← drop_eq_getElem_cons, take_append_drop]
  have hs : ∀ other ∈ before ++ after, other ∈ state.live := by
    intro other hot
    rw [hl]
    rcases mem_append.1 hot with hot | hot
    · exact mem_append_left _ hot
    · exact mem_append_right _ (mem_cons_of_mem _ hot)
  have hla : ∀ id, state.leases id =
      (before ++ after).countP (fun held => decide (held.lease.id = id)) + if held.lease.id = id then 1 else 0 := by
    intro id
    unfold GlobalState.leases
    rw [hl, countP_append, countP_cons, countP_append]
    by_cases hid : held.lease.id = id
    · simp [hid, Nat.add_assoc]
    · simp [hid]
  refine ⟨?_, ?_, ?_, ?_, ?_, ?_, ?_⟩
  · rw [size_replace hlo]
    exact h.size_le
  · intro other hot
    rw [hr] at hot
    exact h.attached other (hs other hot)
  · intro id
    have hcn := h.counted id
    have hsp := hla id
    by_cases hid : held.lease.id = id
    · subst hid
      rw [if_pos rfl] at hsp
      rw [AList.lookup_insert]
      show entry.activeLeases - 1 = List.countP _ (state.live.eraseIdx position)
      rw [hr]
      omega
    · rw [if_neg hid] at hsp
      rw [AList.lookup_insert_ne (Ne.symm hid)]
      show _ = List.countP _ (state.live.eraseIdx position)
      rw [hr]
      omega
  · intro id
    have hsp := hla id
    have hb := h.bounded id
    show List.countP _ (state.live.eraseIdx position) < _
    rw [hr]
    omega
  · intro other hot found hf
    rw [hr] at hot
    by_cases hid : other.lease.id = held.lease.id
    · rw [hid, AList.lookup_insert] at hf
      cases hf
      exact h.owned other (hs other hot) entry (by rw [hid]; exact hlo)
    · rw [AList.lookup_insert_ne hid] at hf
      exact h.owned other (hs other hot) found hf
  · intro gone hg
    rcases mem_cons.1 hg with rfl | hg
    · exact Nat.le_refl _
    · exact Nat.le_trans (h.past gone hg) hle
  · intro gone hg hlt
    rcases mem_cons.1 hg with rfl | hg
    · refine ⟨_, AList.lookup_insert _, how, ?_⟩
      intro hz
      dsimp only at hz ⊢
      rw [if_pos hz]
    · obtain ⟨old, ho, hgn, he⟩ := h.grace gone hg (Nat.lt_of_le_of_lt hle hlt)
      by_cases hid : gone.id = held.lease.id
      · rw [hid, hlo] at ho
        cases ho
        rw [hid]
        refine ⟨_, AList.lookup_insert _, hgn, ?_⟩
        intro hz
        dsimp only at hz ⊢
        rw [if_pos hz]
        have := h.past gone hg
        omega
      · exact ⟨old, by rw [AList.lookup_insert_ne hid]; exact ho, hgn, he⟩

theorem step (h : GlobalInv state clock) (call : GlobalCall) (hle : clock ≤ call.now) :
    GlobalInv (state.step call) call.now := by
  cases call with
  | acquire id owner now => exact h.acquire hle id owner
  | purge now => exact h.purge hle
  | release position now dropped =>
    unfold GlobalState.step GlobalState.endLease
    dsimp only
    cases hh : state.live[position]? with
    | none => exact h.mono hle
    | some held =>
      have ha := h.attached held (mem_of_getElem? hh)
      have he := h.endLease hle hh
      simp only [XudpGlobalLease.release, ha, if_true, XudpGlobalLease.drop, Bool.false_eq_true, if_false]
      exact he
  | drop position now =>
    unfold GlobalState.step GlobalState.endLease
    dsimp only
    cases hh : state.live[position]? with
    | none => exact h.mono hle
    | some held =>
      have ha := h.attached held (mem_of_getElem? hh)
      have he := h.endLease hle hh
      simp only [XudpGlobalLease.drop, ha, if_true]
      exact he

theorem foldl {calls : List GlobalCall} (h : GlobalInv state clock) (hf : ∀ call ∈ calls, clock ≤ call.now)
    (ho : calls.Pairwise fun first second => first.now ≤ second.now)
    (hu : ∀ call ∈ calls, call.now ≤ now) (hle : clock ≤ now) : GlobalInv (calls.foldl GlobalState.step state) now := by
  induction calls generalizing state clock with
  | nil => exact h.mono hle
  | cons call calls ih =>
    rw [pairwise_cons] at ho
    exact ih (h.step call (hf call (mem_cons_self ..))) ho.1 ho.2
      (fun other hot => hu other (mem_cons_of_mem _ hot)) (hu call (mem_cons_self ..))

theorem run {calls : List GlobalCall} (ho : calls.Pairwise fun first second => first.now ≤ second.now)
    (hu : ∀ call ∈ calls, call.now ≤ now) : GlobalInv (GlobalState.run calls) now :=
  GlobalInv.empty.foldl (fun _ _ => Nat.zero_le _) ho hu (Nat.zero_le _)

end GlobalInv

/-! ### What users see of each other -/

/-- The id belongs to another user: through a lease that lives, or in the grace period of one that ended. -/
def GlobalState.Taken (state : GlobalState) (id : XudpGlobalId) (user : UserId) (now : Nat) : Prop :=
  (∃ held ∈ state.live, held.lease.id = id ∧ held.owner ≠ user) ∨
    ∃ gone ∈ state.ended, gone.id = id ∧ gone.owner ≠ user ∧ now < gone.endedAt + xudpAssociationIdle

/-- No lease on the id lives, and the grace period of each that ended is over. -/
def GlobalState.Lapsed (state : GlobalState) (id : XudpGlobalId) (now : Nat) : Prop :=
  state.leases id = 0 ∧ ∀ gone ∈ state.ended, gone.id = id → gone.endedAt + xudpAssociationIdle ≤ now

namespace GlobalInv

variable {state : GlobalState} {now : Nat}

theorem due_of_active (h : 1 ≤ entry.activeLeases) : XudpGlobalMap.due now entry = false := by
  have hne : entry.activeLeases ≠ 0 := by omega
  simp [XudpGlobalMap.due, hne]

theorem purge_keeps_live (h : GlobalInv state now) (hlive : held ∈ state.live) :
    (state.map.purge now).lookup held.lease.id = state.map.lookup held.lease.id := by
  obtain ⟨entry, hl, hp, -⟩ := h.entry_of_live hlive
  rw [lookup_purge_of_not_due hl (due_of_active hp), hl]

theorem acquire_conflict (h : GlobalInv state now) {user : UserId} (ht : state.Taken id user now) :
    state.map.acquire id user now = (state.map.purge now, .error .associationConflict) := by
  obtain ⟨entry, hlo, how⟩ : ∃ entry, (state.map.purge now).lookup id = some entry ∧ entry.owner ≠ user := by
    rcases ht with ⟨held, hl, rfl, ho⟩ | ⟨gone, hg, rfl, ho, hgr⟩
    · obtain ⟨entry, hlo, hp, how⟩ := h.entry_of_live hl
      exact ⟨entry, lookup_purge_of_not_due hlo (due_of_active hp), how ▸ ho⟩
    · obtain ⟨entry, hlo, how, -⟩ := (h.purge (Nat.le_refl now)).grace gone hg hgr
      exact ⟨entry, hlo, how ▸ ho⟩
  unfold XudpGlobalMap.acquire
  dsimp only
  rw [hlo]
  dsimp only
  rw [if_pos how]

theorem acquire_error {map map' : XudpGlobalMap} {user : UserId} {error : XudpSessionError}
    (h : map.acquire id user now = (map', .error error)) : map' = map.purge now := by
  unfold XudpGlobalMap.acquire at h
  dsimp only at h
  cases hl : (map.purge now).lookup id with
  | some entry =>
    rw [hl] at h
    dsimp only at h
    split at h
    · cases h
      rfl
    split at h
    · cases h
      rfl
    · cases h
  | none =>
    rw [hl] at h
    dsimp only at h
    split at h
    · cases h
      rfl
    · cases h

theorem purge_changes (h : GlobalInv state now) (id : XudpGlobalId) :
    (state.map.purge now).lookup id = state.map.lookup id ∨
      (state.map.purge now).lookup id = none ∧ state.Lapsed id now := by
  cases hl : state.map.lookup id with
  | none =>
    left
    rw [lookup_purge, hl, filter_none]
  | some entry =>
    cases hd : XudpGlobalMap.due now entry with
    | false => exact .inl (lookup_purge_of_not_due hl hd)
    | true =>
      have hg : (state.map.purge now).lookup id = none := by
        rw [lookup_purge, hl, filter_some, hd]
        rfl
      have hc := h.counted id
      rw [hl] at hc
      change entry.activeLeases = _ at hc
      simp only [XudpGlobalMap.due, Bool.and_eq_true, beq_iff_eq, decide_eq_true_eq] at hd
      refine .inr ⟨hg, by omega, ?_⟩
      intro gone hm hid
      by_contra hgr
      obtain ⟨found, hf, -, -⟩ := (h.purge (Nat.le_refl now)).grace gone hm (Nat.lt_of_not_le hgr)
      rw [hid] at hf
      change (state.map.purge now).lookup id = some found at hf
      rw [hg] at hf
      cases hf

end GlobalInv

/-- The global-id map after any calls in time order: it holds at most its limit of entries; each entry
counts the leases that live on it, and a lease that lives has an entry to be subtracted from, which no purge
removes; an acquire by another user fails while a lease lives or the grace period after it runs; and
an acquire that fails changes no other entry, except that entries that have lapsed are dropped. -/
theorem xudp_global_map {calls : List GlobalCall} {now : Nat}
    (hordered : calls.Pairwise fun first second => first.now ≤ second.now) (huntil : ∀ call ∈ calls, call.now ≤ now) :
    let state := GlobalState.run calls
    state.map.keys.length ≤ xudpMaxAssociations ∧
    (∀ id entry, state.map.lookup id = some entry → entry.activeLeases = state.leases id) ∧
    (∀ held ∈ state.live, ∃ entry, state.map.lookup held.lease.id = some entry ∧ 1 ≤ entry.activeLeases) ∧
    (∀ held ∈ state.live, (state.map.purge now).lookup held.lease.id = state.map.lookup held.lease.id) ∧
    (∀ id user, state.Taken id user now → (state.map.acquire id user now).2 = .error .associationConflict) ∧
    (∀ id user map error, state.map.acquire id user now = (map, .error error) → ∀ other, other ≠ id →
      map.lookup other = state.map.lookup other ∨ map.lookup other = none ∧ state.Lapsed other now) := by
  intro state
  have hi : GlobalInv state now := GlobalInv.run hordered huntil
  refine ⟨hi.size_le, ?_, ?_, ?_, ?_, ?_⟩
  · intro id entry hlo
    have hc := hi.counted id
    rw [hlo] at hc
    exact hc
  · intro held hl
    obtain ⟨entry, hlo, hp, -⟩ := hi.entry_of_live hl
    exact ⟨entry, hlo, hp⟩
  · intro held hl
    exact hi.purge_keeps_live hl
  · intro id user ht
    rw [hi.acquire_conflict ht]
  · intro id user map error ha other _
    rw [GlobalInv.acquire_error ha]
    exact hi.purge_changes other

section Example

def alice : UserId := Vector.replicate 16 1

def bob : UserId := Vector.replicate 16 2

def idle : XudpGlobalId := Vector.replicate 8 1

def busy : XudpGlobalId := Vector.replicate 8 2

def used : List GlobalCall := [.acquire idle alice 0, .release 0 0 0, .acquire busy alice 0]

/-- Just before the grace period ends, both ids refuse another user. -/
theorem xudp_global_map_used :
    let state := GlobalState.run used
    let last := xudpAssociationIdle - 1
    (state.map.acquire idle bob last).2 = .error .associationConflict ∧
      (state.map.acquire busy bob last).2 = .error .associationConflict := by
  have hm := @xudp_global_map used (xudpAssociationIdle - 1) (by decide +kernel) (by decide +kernel)
  exact ⟨hm.2.2.2.2.1 idle bob (.inr ⟨⟨idle, alice, 0⟩, by decide +kernel⟩),
    hm.2.2.2.2.1 busy bob (.inl ⟨⟨⟨true, busy⟩, alice⟩, by decide +kernel⟩)⟩

/-- Once it has ended, the refused acquire of one id drops the entry of the other. -/
theorem acquire_drops_other_entry :
    let state := GlobalState.run used
    (state.map.acquire busy bob xudpAssociationIdle).2 = .error .associationConflict ∧ idle ≠ busy ∧
      (state.map.lookup idle).isSome ∧ (state.map.acquire busy bob xudpAssociationIdle).1.lookup idle = none := by
  decide +kernel

end Example

end RustReality.Xudp
