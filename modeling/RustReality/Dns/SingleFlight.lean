import RustReality.Dns.Resolver

/-!
# One flight for a class and name

A lookup that runs stands in the slot of its class and name, so no second one is started. Everything
else in a slot was left there by a flight for the same class and name that has ended, and callers are
served from it or with the outcome of the flight they joined.
-/

namespace RustReality.Dns
open Vless Interleaving Expiry DnsState List Option

variable {policy : ResolverPolicy} {ι : Type}

/-! ### The table -/

def Thins (slots slots' : Slots) : Prop :=
  ∀ key, slots'.lookup key = slots.lookup key ∨ slots'.lookup key = none ∧ ∀ id, slots.lookup key ≠ some (.inFlight id)

theorem Thins.refl (slots : Slots) : Thins slots slots := fun _ => .inl rfl

variable {slots : Slots} {key : CacheKey} {flight : Flight} {event : Option DnsEvent} {slots' : Slots}

theorem Thins.erase (h : Thins slots slots')
    (hc : ∀ id, slots'.lookup key ≠ some (.inFlight id)) : Thins slots (slots'.erase key) := by
  intro other
  by_cases hk : other = key
  · subst hk
    refine .inr ⟨AList.lookup_erase _ _, ?_⟩
    rcases h other with hs | ⟨-, hn⟩
    · exact fun id => hs ▸ hc id
    · exact hn
  · rw [AList.lookup_erase_ne hk]
    exact h other

theorem Thins.lookup (h : Thins slots slots') {slot : Slot}
    (hs : slots'.lookup key = some slot) : slots.lookup key = some slot := by
  rcases h key with hsm | ⟨hn, -⟩
  · exact hsm.symm.trans hs
  · exact absurd (hn.symm.trans hs) nofun

variable {id : Nat}

theorem Thins.inFlight (h : Thins slots slots')
    (hs : slots.lookup key = some (.inFlight id)) : slots'.lookup key = some (.inFlight id) := by
  rcases h key with hsm | ⟨-, hn⟩
  · exact hsm.trans hs
  · exact absurd hs (hn id)

theorem thins_retain (slots : Slots) (now : Nat) : Thins slots (retain (fun slot => !slot.isExpired now) slots) := by
  intro key
  rw [lookup_retain]
  cases hs : slots.lookup key with
  | none => exact .inl rfl
  | some slot =>
    by_cases he : slot.isExpired now
    · refine .inr ⟨by simp [he], fun id heq => ?_⟩
      cases heq
      simp [Slot.isExpired, Slot.expiresAt] at he
    · exact .inl (by simp [he])

theorem thins_evictPressure (slots : Slots) (now pick : Nat) : Thins slots (evictPressure policy slots now pick) := by
  have hr := thins_retain slots now
  unfold evictPressure
  dsimp only
  split
  · split
    · next victim expires hv =>
      refine hr.erase fun id hf => ?_
      -- the victim is chosen among entries that expire
      have hm := mem_of_mem_filter (mem_of_getElem? hv)
      obtain ⟨entry, hen, he⟩ := mem_filterMap.1 hm
      obtain ⟨time, ht, heq⟩ := map_eq_some_iff.1 he
      cases heq
      have hl := AList.mem_lookup_iff.2 hen
      rw [hf] at hl
      rw [← Option.some.inj hl] at ht
      cases ht
    · exact hr
  · exact hr

/-! ### What the table and the flights keep -/

def Flight.Running (flight : Flight) : Prop :=
  match flight.phase with
  | .spawned | .lookup _ | .store .. => True
  | .send _ | .sent _ | .dropped => False

/-- The flight for `key` ended at `now` with `result`. -/
def Ended (history : List (ι × DnsEvent)) (id : Nat) (key : CacheKey) (now : Nat) (result : Upstream) : Prop :=
  ∃ i, (i, .settled id key now result) ∈ history

def Flight.Settled (policy : ResolverPolicy) (history : List (ι × DnsEvent)) (id : Nat) (flight : Flight) : Prop :=
  match flight.phase with
  | .store now slot outcome => ∃ result, Ended history id flight.key now result ∧
      settle policy flight.key.queryClass now result = (slot, outcome)
  | .send outcome | .sent outcome => ∃ now result, Ended history id flight.key now result ∧
      (settle policy flight.key.queryClass now result).2 = outcome
  | _ => True

structure TableInv (policy : ResolverPolicy) (s : DnsState) (history : List (ι × DnsEvent)) : Prop where
  running : ∀ (id : Nat) (flight : Flight), s.flights[id]? = some flight → flight.Running → s.slots.lookup flight.key = some (.inFlight id)
  inFlight : ∀ key id, s.slots.lookup key = some (.inFlight id) →
    ∃ flight : Flight, s.flights[id]? = some flight ∧ flight.key = key
  cached : ∀ key slot, s.slots.lookup key = some slot → slot.expiresAt.isSome →
    ∃ id now result, Ended history id key now result ∧ (settle policy key.queryClass now result).1 = some slot
  settled : ∀ (id : Nat) (flight : Flight), s.flights[id]? = some flight → flight.Settled policy history id

theorem getElem?_setPhase {s : DnsState} {id other : Nat} {found : Flight} {phase : FlightPhase}
    (h : (s.setPhase id flight phase).flights[other]? = some found) :
    other = id ∧ found = { flight with phase } ∨ other ≠ id ∧ s.flights[other]? = some found := by
  unfold setPhase at h
  by_cases hid : id = other
  · subst hid
    rw [getElem?_set_self'] at h
    obtain ⟨old, -, heq⟩ := map_eq_some_iff.1 h
    exact .inl ⟨rfl, heq.symm⟩
  · rw [getElem?_set_ne hid] at h
    exact .inr ⟨Ne.symm hid, h⟩

theorem grows_setPhase {s : DnsState} (hf : s.flights[id]? = some flight)
    (phase : FlightPhase) : ∀ (other : Nat) (found : Flight), s.flights[other]? = some found →
      ∃ found' : Flight, (s.setPhase id flight phase).flights[other]? = some found' ∧ found'.key = found.key ∧
        (other ≠ id → found' = found) := by
  intro other found h
  by_cases hid : id = other
  · subst hid
    cases hf.symm.trans h
    exact ⟨{ flight with phase }, by simp [setPhase, (List.getElem?_eq_some_iff.1 h).1], rfl, absurd rfl⟩
  · exact ⟨found, by simpa [setPhase, getElem?_set_ne hid] using h, rfl, fun _ => rfl⟩

theorem settle_fst_ne_inFlight (policy : ResolverPolicy) (queryClass : QueryClass) (now : Nat) (result : Upstream) (id : Nat) :
    (settle policy queryClass now result).1 ≠ some (.inFlight id) := by
  cases result <;> simp [settle]

theorem Flight.Settled.mono {history more : List (ι × DnsEvent)}
    (h : flight.Settled policy history id) : flight.Settled policy (history ++ more) id := by
  have hen {key now result} (hen : Ended history id key now result) : Ended (history ++ more) id key now result :=
    hen.imp fun _ => mem_append_left _
  unfold Flight.Settled at h ⊢
  split at h
  · obtain ⟨result, hre, hse⟩ := h
    exact ⟨result, hen hre, hse⟩
  · obtain ⟨now, result, hre, hse⟩ := h
    exact ⟨now, result, hen hre, hse⟩
  · obtain ⟨now, result, hre, hse⟩ := h
    exact ⟨now, result, hen hre, hse⟩
  · trivial

namespace TableInv

variable {s : DnsState} {history : List (ι × DnsEvent)}

theorem thin (h : TableInv policy s history) (now : Nat) (ht : Thins s.slots slots)
    (more : List (ι × DnsEvent)) : TableInv policy { s with now, slots } (history ++ more) where
  running id flight hf hr := ht.inFlight (h.running id flight hf hr)
  inFlight key id hs := h.inFlight key id (ht.lookup hs)
  cached key slot hs hexpires := by
    obtain ⟨id, now, result, he, hst⟩ := h.cached key slot (ht.lookup hs) hexpires
    exact ⟨id, now, result, he.imp fun _ => mem_append_left _, hst⟩
  settled id flight hf := (h.settled id flight hf).mono

theorem launch (h : TableInv policy s history) (ht : Thins s.slots slots)
    (hf : s.slots.lookup key = none) (timeout : Nat) (more : List (ι × DnsEvent)) :
    TableInv policy { s with slots := slots.insert key (.inFlight s.flights.length), flights := s.flights ++ [⟨key, timeout, .spawned⟩] }
      (history ++ more) := by
  have ho := h.thin s.now ht more
  have hsp {id : Nat} {flight : Flight} (hfl : (s.flights ++ [⟨key, timeout, .spawned⟩])[id]? = some flight) :
      s.flights[id]? = some flight ∨ id = s.flights.length ∧ flight = ⟨key, timeout, .spawned⟩ := by
    rcases lt_trichotomy id s.flights.length with hlt | rfl | hgt
    · exact .inl (by rwa [getElem?_append_left hlt] at hfl)
    · exact .inr ⟨rfl, by simpa using hfl.symm⟩
    · rw [getElem?_eq_none (by simp; omega)] at hfl
      cases hfl
  have hot {other : CacheKey} {slot : Slot} (hs : slots.lookup other = some slot) : other ≠ key := by
    rintro rfl
    exact absurd ((ht.lookup hs).symm.trans hf) nofun
  constructor
  · intro id flight hfl hr
    rcases hsp hfl with hb | ⟨rfl, rfl⟩
    · have hs := ho.running id flight hb hr
      exact (AList.lookup_insert_ne (hot hs)).trans hs
    · exact AList.lookup_insert _
  · intro other id hs
    by_cases hk : other = key
    · subst hk
      rw [AList.lookup_insert] at hs
      cases hs
      exact ⟨⟨other, timeout, .spawned⟩, by simp, rfl⟩
    · rw [AList.lookup_insert_ne hk] at hs
      obtain ⟨flight, hfl, hn⟩ := ho.inFlight other id hs
      exact ⟨flight, by rwa [List.getElem?_append_left (List.getElem?_eq_some_iff.1 hfl).1], hn⟩
  · intro other slot hs he
    by_cases hk : other = key
    · subst hk
      rw [AList.lookup_insert] at hs
      cases hs
      cases he
    · rw [AList.lookup_insert_ne hk] at hs
      exact ho.cached other slot hs he
  · intro id flight hfl
    rcases hsp hfl with hb | ⟨rfl, rfl⟩
    · exact ho.settled id flight hb
    · trivial

theorem advance (h : TableInv policy s history) (hflight : s.flights[id]? = some flight)
    {phase : FlightPhase} (hr : { flight with phase }.Running → flight.Running) (more : List (ι × DnsEvent))
    (hsettled : { flight with phase }.Settled policy (history ++ more) id) :
    TableInv policy (s.setPhase id flight phase) (history ++ more) := by
  have ho := h.thin s.now (.refl s.slots) more
  constructor
  · intro other found hfo hf
    rcases getElem?_setPhase hfo with ⟨rfl, rfl⟩ | ⟨-, hb⟩
    · exact h.running other flight hflight (hr hf)
    · exact h.running other found hb hf
  · intro key other hs
    obtain ⟨found, hfo, hk⟩ := h.inFlight key other hs
    obtain ⟨found', hfo', hk', -⟩ := grows_setPhase hflight phase other found hfo
    exact ⟨found', hfo', hk'.trans hk⟩
  · exact ho.cached
  · intro other found hfo
    rcases getElem?_setPhase hfo with ⟨rfl, rfl⟩ | ⟨-, hb⟩
    · exact hsettled
    · exact ho.settled other found hb

theorem store (h : TableInv policy s history) {id now : Nat} {slot : Option Slot} {outcome : FlightResult}
    (hf : s.flights[id]? = some flight) (hp : flight.phase = .store now slot outcome)
    (ht : Thins s.slots slots) (hk : slots'.lookup flight.key = slot)
    (ho : ∀ key, key ≠ flight.key → slots'.lookup key = slots.lookup key) :
    TableInv policy ({ s with slots := slots' }.setPhase id flight (.send outcome)) history := by
  have hen := h.settled id flight hf
  rw [Flight.Settled, hp] at hen
  obtain ⟨result, hen, hst⟩ := hen
  have hm : s.slots.lookup flight.key = some (.inFlight id) :=
    h.running id flight hf (by rw [Flight.Running, hp]; trivial)
  constructor
  · intro other found hfo hr
    rcases getElem?_setPhase hfo with ⟨rfl, rfl⟩ | ⟨hid, hb⟩
    · exact hr.elim
    · have hs := h.running other found hb hr
      have hne : found.key ≠ flight.key := fun heq => hid (by
        rw [heq, hm] at hs
        exact (Slot.inFlight.inj (Option.some.inj hs)).symm)
      exact (ho _ hne).trans (ht.inFlight hs)
  · intro key other hs
    by_cases heq : key = flight.key
    · subst heq
      have hso := (congrArg Prod.fst hst).trans (hk.symm.trans hs)
      exact absurd hso (settle_fst_ne_inFlight _ _ _ _ _)
    · obtain ⟨found, hfo, hn⟩ := h.inFlight key other (ht.lookup ((ho key heq).symm.trans hs))
      obtain ⟨found', hfo', hk', -⟩ := grows_setPhase hf (.send outcome) other found hfo
      exact ⟨found', hfo', hk'.trans hn⟩
  · intro key cached hs he
    by_cases heq : key = flight.key
    · subst heq
      refine ⟨id, now, result, hen, ?_⟩
      rw [hst]
      exact hk.symm.trans hs
    · exact h.cached key cached (ht.lookup ((ho key heq).symm.trans hs)) he
  · intro other found hfo
    rcases getElem?_setPhase hfo with ⟨rfl, rfl⟩ | ⟨-, hb⟩
    · exact ⟨now, result, hen, by rw [hst]⟩
    · exact h.settled other found hb

end TableInv

variable {result : Upstream}

theorem settle_of_positive {queryClass : QueryClass} {now expires : Nat} {ips : List IpAddr}
    (h : (settle policy queryClass now result).1 = some (.positive ips expires)) :
    (settle policy queryClass now result).2 = .ok ips := by
  cases result with
  | answer ips' ttl =>
    obtain ⟨ttl, -, heq⟩ := map_eq_some_iff.1 h
    cases heq
    rfl
  | _ => simp [settle] at h

theorem settle_of_negative {queryClass : QueryClass} {now expires : Nat} {nxdomain : Bool}
    (h : (settle policy queryClass now result).1 = some (.negative nxdomain expires)) :
    (settle policy queryClass now result).2 = .error (.notFound nxdomain) := by
  cases result with
  | notFound nxdomain' ttl =>
    obtain ⟨ttl, -, heq⟩ := map_eq_some_iff.1 h
    cases heq
    rfl
  | _ => simp [settle] at h

/-! ### What callers are told -/

def DnsTask.awaits : DnsTask → Option (CacheKey × Nat)
  | joined call flight => some (call.key, flight)
  | waiting call flight _ => some (call.key, flight)
  | _ => none

/-- An answer of the cache was left by a flight for the class and normalized name of the call and has not
expired; an answer of a flight is the outcome that such a flight has sent; a caller gives up at its
deadline only. -/
def Told (policy : ResolverPolicy) (flights : List Flight) (history : List (ι × DnsEvent)) : DnsEvent → Prop
  | .hit call slot now result => (∃ expires, slot.expiresAt = some expires ∧ now < expires) ∧
      ∃ id time upstream, Ended history id call.key time upstream ∧
        (settle policy call.queryClass time upstream).1 = some slot ∧
        result = (settle policy call.queryClass time upstream).2.bind (filterFamily · call.family)
  | .answered call id _ result => ∃ (flight : Flight) (outcome : FlightResult), flights[id]? = some flight ∧
      flight.key = call.key ∧ flight.phase = .sent outcome ∧ result = outcome.bind (filterFamily · call.family)
  | .timedOut _ _ deadline now => deadline ≤ now
  | _ => True

structure DnsInv (policy : ResolverPolicy) (config : Config ι DnsState DnsTask) (history : List (ι × DnsEvent)) : Prop where
  table : TableInv policy config.shared history
  awaited : ∀ i key id, (config.tasks i).awaits = some (key, id) →
    ∃ flight : Flight, config.shared.flights[id]? = some flight ∧ flight.key = key
  told : ∀ i event, (i, event) ∈ history → Told policy config.shared.flights history event

/-- Flights stay with their key, and one that has sent its outcome does not change. -/
def Grows (flights flights' : List Flight) : Prop :=
  ∀ (id : Nat) (flight : Flight), flights[id]? = some flight → ∃ flight' : Flight, flights'[id]? = some flight' ∧
    flight'.key = flight.key ∧ ∀ outcome, flight.phase = .sent outcome → flight' = flight

theorem Grows.refl (flights : List Flight) : Grows flights flights := fun _ flight h => ⟨flight, h, rfl, fun _ _ => rfl⟩

theorem grows_append (flights : List Flight) (flight : Flight) : Grows flights (flights ++ [flight]) := by
  intro id other h
  refine ⟨other, ?_, rfl, fun _ _ => rfl⟩
  rw [List.getElem?_append_left (List.getElem?_eq_some_iff.1 h).1]
  exact h

theorem grows_of_setPhase {s : DnsState} (hflight : s.flights[id]? = some flight)
    (hs : ∀ outcome, flight.phase ≠ .sent outcome) (phase : FlightPhase) :
    Grows s.flights (s.setPhase id flight phase).flights := by
  intro other found hf
  obtain ⟨found', hf', hk, hsm⟩ := grows_setPhase hflight phase other found hf
  refine ⟨found', hf', hk, fun outcome ho => hsm ?_⟩
  rintro rfl
  cases hflight.symm.trans hf
  exact hs outcome ho

theorem Told.grow {flights flights' : List Flight} {history more : List (ι × DnsEvent)} {event : DnsEvent}
    (h : Told policy flights history event) (hg : Grows flights flights') : Told policy flights' (history ++ more) event := by
  cases event with
  | hit call slot now result =>
    obtain ⟨hfr, id, time, upstream, he, hs⟩ := h
    exact ⟨hfr, id, time, upstream, he.imp fun _ => mem_append_left _, hs⟩
  | answered call id now result =>
    obtain ⟨flight, outcome, hf, hk, hp, hr⟩ := h
    obtain ⟨flight', hf', -, hsm⟩ := hg id flight hf
    cases hsm outcome hp
    exact ⟨flight, outcome, hf', hk, hp, hr⟩
  | _ => exact h

theorem received_eq_outcome {s : DnsState} {outcome : FlightResult}
    (h : s.received key id = some (some outcome)) : ∃ flight, s.flights[id]? = some flight ∧ flight.phase = .sent outcome := by
  unfold received at h
  split at h
  · next hf =>
    cases h
    exact ⟨_, hf, rfl⟩
  · split_ifs at h
    cases h
  · cases h

variable [DecidableEq ι] {config : Config ι DnsState DnsTask} {history : List (ι × DnsEvent)}
  {i : ι} {s' : DnsState} {task' : DnsTask}

theorem DnsInv.turn (h : DnsInv policy config history)
    (htable : TableInv policy s' (history ++ (event.map (i, ·)).toList)) (hg : Grows config.shared.flights s'.flights)
    (ha : ∀ key id, task'.awaits = some (key, id) →
      (config.tasks i).awaits = some (key, id) ∨ ∃ flight : Flight, s'.flights[id]? = some flight ∧ flight.key = key)
    (ht : ∀ e ∈ event, Told policy s'.flights (history ++ (event.map (i, ·)).toList) e) :
    DnsInv policy ⟨s', Function.update config.tasks i task'⟩ (history ++ (event.map (i, ·)).toList) := by
  have hkp : ∀ j key id, (config.tasks j).awaits = some (key, id) →
      ∃ flight : Flight, s'.flights[id]? = some flight ∧ flight.key = key := fun j key id hj => by
    obtain ⟨flight, hf, hk⟩ := h.awaited j key id hj
    obtain ⟨flight', hf', hk', -⟩ := hg id flight hf
    exact ⟨flight', hf', hk'.trans hk⟩
  refine ⟨htable, fun j key id hj => ?_, fun j e hm => ?_⟩
  · dsimp only at hj
    by_cases hij : j = i
    · subst hij
      rw [Function.update_self] at hj
      exact (ha key id hj).elim (hkp j key id) fun h => h
    · rw [Function.update_of_ne hij] at hj
      exact hkp j key id hj
  · rcases mem_append.1 hm with hb | hn
    · exact (h.told j e hb).grow hg
    · cases event with
      | none => cases hn
      | some e' =>
        cases mem_singleton.1 hn
        exact ht e rfl

theorem DnsInv.quiet (h : DnsInv policy config history) {now : Nat} (hthins : Thins config.shared.slots slots)
    (ha : ∀ key id, task'.awaits = some (key, id) →
      (config.tasks i).awaits = some (key, id) ∨ config.shared.slots.lookup key = some (.inFlight id))
    (ht : ∀ e ∈ event, Told policy config.shared.flights (history ++ (event.map (i, ·)).toList) e) :
    DnsInv policy ⟨{ config.shared with now, slots }, Function.update config.tasks i task'⟩
      (history ++ (event.map (i, ·)).toList) :=
  h.turn (h.table.thin now hthins _) (.refl _) (fun key id hk => (ha key id hk).imp_right (h.table.inFlight key id)) ht

theorem DnsInv.enter (h : DnsInv policy config history) {call : DnsCall} {permit : Bool} {pick : Nat}
    (henter : config.shared.enter policy call permit pick = (s', task', event)) :
    DnsInv policy ⟨s', Function.update config.tasks i task'⟩ (history ++ (event.map (i, ·)).toList) := by
  have hsr (slot : Slot) (result : FlightResult) (hs : config.shared.slots.lookup call.key = some slot)
      (hc : slot.expiresAt.isSome) (hr : ∀ time upstream, (settle policy call.queryClass time upstream).1 = some slot →
        result = (settle policy call.queryClass time upstream).2.bind (filterFamily · call.family))
      (hh : (if slot.isExpired config.shared.now then
          ({ config.shared with slots := config.shared.slots.erase call.key }, .enter call, none)
        else (config.shared, .idle, some (.hit call slot config.shared.now result))) = (s', task', event)) :
      DnsInv policy ⟨s', Function.update config.tasks i task'⟩ (history ++ (event.map (i, ·)).toList) := by
    obtain ⟨expires, hex⟩ := isSome_iff_exists.1 hc
    split_ifs at hh with hed
    · cases hh
      refine h.quiet ((Thins.refl _).erase fun id hid => ?_) (by rintro _ _ ⟨⟩) nofun
      cases hs.symm.trans hid
      cases hc
    · cases hh
      obtain ⟨id, time, upstream, hend, hse⟩ := h.table.cached call.key slot hs hc
      refine h.quiet (.refl _) (by rintro _ _ ⟨⟩) fun e he => ?_
      cases he
      refine ⟨⟨expires, hex, ?_⟩, id, time, upstream, hend.imp fun _ => mem_append_left _, hse,
        hr time upstream hse⟩
      simpa [Slot.isExpired, hex] using hed
  unfold DnsState.enter at henter
  dsimp only at henter
  split at henter
  · next ips expires hs =>
    refine hsr _ _ hs rfl (fun time upstream hse => ?_) henter
    rw [settle_of_positive hse]
    rfl
  · next nxdomain expires hs =>
    refine hsr _ _ hs rfl (fun time upstream hse => ?_) henter
    rw [settle_of_negative hse]
    rfl
  · next id hs =>
    cases henter
    refine h.quiet (.refl _) (fun other id' ha => .inr ?_) fun e he => ?_
    · cases ha
      exact hs
    · cases he
      trivial
  · next hf =>
    split_ifs at henter with hd hfl
    · cases henter
      refine h.quiet (.refl _) (by rintro _ _ ⟨⟩) fun e he => ?_
      cases he
      trivial
    all_goals
      cases henter
      refine h.turn (h.table.launch ?_ hf call.effective _) (grows_append _ _) (fun other id' ha => .inr ?_) fun e he => ?_
      · first | exact thins_evictPressure _ _ _ | exact .refl _
      · cases ha
        exact ⟨⟨call.key, call.effective, .spawned⟩, by simp, rfl⟩
      · cases he
        trivial

theorem DnsInv.fly (h : DnsInv policy config history) {id pick : Nat}
    (hf : config.shared.fly policy id result pick = some (s', event)) :
    DnsInv policy ⟨s', Function.update config.tasks i .idle⟩ (history ++ (event.map (i, ·)).toList) := by
  unfold DnsState.fly at hf
  split at hf
  · cases hf
  next flight hfl =>
  have hs := h.table.settled id flight hfl
  split at hf
  · next hph =>
    cases hf
    refine h.turn (h.table.advance hfl (fun _ => by rw [Flight.Running, hph]; trivial) _ trivial)
      (grows_of_setPhase hfl (by simp [hph]) _) nofun nofun
  · next deadline hph =>
    split_ifs at hf
    cases hf
    refine h.turn (h.table.advance hfl (fun _ => by rw [Flight.Running, hph]; trivial) _ ?_)
      (grows_of_setPhase hfl (by simp [hph]) _) nofun fun e he => ?_
    · exact ⟨result, ⟨i, mem_append_right _ (by simp)⟩, rfl⟩
    · cases he
      trivial
  · next now slot outcome hph =>
    cases hf
    refine h.turn ?_ (grows_of_setPhase hfl (by simp [hph]) _) nofun nofun
    rw [map_none, toList_none, append_nil]
    cases slot with
    | none => exact h.table.store hfl hph (.refl _) (AList.lookup_erase _ _) fun key hk => AList.lookup_erase_ne hk
    | some slot =>
      unfold insertBounded
      dsimp only
      split
      · exact h.table.store hfl hph (thins_evictPressure _ _ _) (AList.lookup_insert _) fun key hk =>
          AList.lookup_insert_ne hk
      · exact h.table.store hfl hph (.refl _) (AList.lookup_insert _) fun key hk => AList.lookup_insert_ne hk
  · next outcome hph =>
    cases hf
    rw [Flight.Settled, hph] at hs
    refine h.turn (h.table.advance hfl False.elim _ ?_) (grows_of_setPhase hfl (by simp [hph]) _) nofun nofun
    simpa [Flight.Settled] using hs
  · cases hf
  · cases hf

variable (policy) in
theorem DnsInv.step (parseIp : Bytes → Option IpAddr) (h : DnsInv policy config history) {answer : DnsAnswer}
    (hrun : dnsProgram policy parseIp i answer config.shared (config.tasks i) = some (s', task', event)) :
    DnsInv policy ⟨s', Function.update config.tasks i task'⟩ (history ++ (event.map (i, ·)).toList) := by
  have hr (result : FlightResult) : DnsInv policy ⟨config.shared, Function.update config.tasks i .idle⟩
      (history ++ ((some (DnsEvent.returned result)).map (i, ·)).toList) := by
    refine h.quiet (.refl _) (by rintro _ _ ⟨⟩) fun e he => ?_
    cases he
    trivial
  unfold dnsProgram at hrun
  split at hrun
  · split at hrun
    · cases hrun
      exact hr _
    · split at hrun
      · cases hrun
        exact hr _
      · dsimp only at hrun
        split_ifs at hrun
        · cases hrun
          exact hr _
        · cases hrun
          exact h.quiet (.refl _) (by rintro _ _ ⟨⟩) nofun
  · cases hrun
    exact h.quiet (.refl _) (by rintro _ _ ⟨⟩) nofun
  · obtain ⟨⟨next, event'⟩, hfl, heq⟩ := map_eq_some_iff.1 hrun
    cases heq
    exact h.fly hfl
  · obtain ⟨next, hd, heq⟩ := map_eq_some_iff.1 hrun
    cases heq
    unfold dropFlight at hd
    split at hd
    · cases hd
    next flight hf =>
    split at hd
    · cases hd
    · cases hd
    next hs hdr =>
    cases hd
    exact h.turn (h.table.advance hf False.elim _ trivial) (grows_of_setPhase hf hs _) nofun nofun
  · exact h.enter (Option.some.inj hrun)
  · next call flight _ _ hj =>
    cases hrun
    exact h.quiet (.refl _) (fun other id ha => .inl (by rw [hj]; exact ha)) nofun
  · cases hrun
    exact h.quiet (.refl _) (by rintro _ _ ⟨⟩) nofun
  · next call flight deadline _ _ hw =>
    split at hrun
    · next outcome hrc =>
      cases hrun
      refine h.quiet (.refl _) (by rintro _ _ ⟨⟩) fun e he => ?_
      cases he
      obtain ⟨sent, hs, hp⟩ := received_eq_outcome hrc
      obtain ⟨awaited, haw, hk⟩ := h.awaited i call.key flight (by rw [hw]; rfl)
      cases hs.symm.trans haw
      exact ⟨sent, outcome, hs, hk, hp, rfl⟩
    · cases hrun
      exact h.quiet (.refl _) (by rintro _ _ ⟨⟩) nofun
    · split_ifs at hrun with hde
      cases hrun
      refine h.quiet (.refl _) (by rintro _ _ ⟨⟩) fun e he => ?_
      cases he
      exact hde
  · cases hrun

end RustReality.Dns
