import RustReality.Lib.Expiry
import RustReality.Lib.Interleaving
import RustReality.Routing.Rules

/-!
# The DNS resolver

Callers and lookups share one table of slots. A caller looks at the slot of its class and name under
the lock: it takes a cached answer, joins the lookup in flight or starts one, and waits for its outcome
with a timer of its own. A flight asks upstream, puts what may be cached into the slot, and only then
sends the outcome to its receivers. Any thread may take the next action of any flight, a flight may be
dropped, and time passes between any two actions.
-/

namespace RustReality.Dns
open Vless Interleaving Expiry

def maxNameLength : Nat := 253

inductive QueryClass
  | dynamic
  | «static»
  deriving DecidableEq, Repr

structure CacheKey where
  queryClass : QueryClass
  name : Bytes
  deriving DecidableEq

inductive IpFamily
  | any
  | v4
  | v6
  deriving DecidableEq, Repr

inductive DnsError
  | invalidName
  | notFound (nxdomain : Bool)
  | noAddresses
  | timeout
  | limit
  | tooManyAddresses
  | allocation
  | failed (message : Bytes)
  deriving DecidableEq

abbrev FlightResult := Except DnsError (List IpAddr)

/-- How the query of a flight ends; durations are nanoseconds. -/
inductive Upstream
  | timedOut
  | notFound (nxdomain : Bool) (negativeTtl : Option Nat)
  | tooManyAddresses
  | allocation
  | failed (message : Bytes)
  | answer (ips : List IpAddr) (ttl : Option Nat)
  deriving DecidableEq

/-- `CacheBounds`, with what the validated configuration guarantees. -/
structure CacheBounds where
  maxEntries : Nat
  minTtl : Nat
  maxTtl : Nat
  negativeTtl : Nat
  staticTtl : Nat
  min_le_max : minTtl ≤ maxTtl

structure ResolverPolicy where
  timeout : Nat
  bounds : CacheBounds
  systemReuse : Option Nat

inductive Slot
  | positive (ips : List IpAddr) (expires : Nat)
  | negative (nxdomain : Bool) (expires : Nat)
  | inFlight (flight : Nat)
  deriving DecidableEq

namespace Slot

def expiresAt : Slot → Option Nat
  | positive _ expires | negative _ expires => some expires
  | inFlight _ => none

def isExpired (slot : Slot) (now : Nat) : Bool := slot.expiresAt.any (decide <| · ≤ now)

end Slot

abbrev Slots := AList fun _ : CacheKey => Slot

/-! ### Pure parts -/

def normalizeName (name : Bytes) : Except DnsError Bytes :=
  let trimmed := (name.reverse.dropWhile (· = 46)).reverse
  if trimmed = [] ∨ maxNameLength < trimmed.length then .error .invalidName
  else .ok (trimmed.map Routing.toAsciiLowercase)

def IpFamily.admits : IpFamily → IpAddr → Bool
  | any, _ => true
  | v4, .v4 _ => true
  | v6, .v6 _ => true
  | _, _ => false

def filterFamily (ips : List IpAddr) (family : IpFamily) : FlightResult :=
  if family = .any then .ok ips
  else
    let filtered := ips.filter family.admits
    if filtered = [] then .error .noAddresses else .ok filtered

/-- `Ord::clamp`. -/
def clamp (ttl low high : Nat) : Nat := if ttl < low then low else if high < ttl then high else ttl

variable (policy : ResolverPolicy)

/-- What a flight that ends at `now` leaves in its slot, and its outcome. -/
def settle (queryClass : QueryClass) (now : Nat) : Upstream → Option Slot × FlightResult
  | .timedOut => (none, .error .timeout)
  | .notFound nxdomain negativeTtl =>
    let ttl := (if queryClass = .dynamic then negativeTtl else none).map (min · policy.bounds.negativeTtl)
    ((ttl.filter (· ≠ 0)).map fun ttl => .negative nxdomain (now + ttl), .error (.notFound nxdomain))
  | .tooManyAddresses => (none, .error .tooManyAddresses)
  | .allocation => (none, .error .allocation)
  | .failed message => (none, .error (.failed message))
  | .answer ips ttl =>
    let ttl := match queryClass with
      | .static => some policy.bounds.staticTtl
      | .dynamic => (ttl.map (clamp · policy.bounds.minTtl policy.bounds.maxTtl)).or policy.systemReuse
    ((ttl.filter (· ≠ 0)).map fun ttl => .positive ips (now + ttl), .ok ips)

/-- Expired entries go first, then one of the entries that expire next; `pick` is the order of the map. -/
def evictPressure (slots : Slots) (now pick : Nat) : Slots :=
  let slots := retain (fun slot => !slot.isExpired now) slots
  if policy.bounds.maxEntries ≤ slots.keys.length then
    let cached := slots.entries.filterMap fun entry => entry.2.expiresAt.map (entry.1, ·)
    let next := cached.filter fun entry => cached.all fun other => entry.2 ≤ other.2
    match next[pick % next.length]? with
    | some (key, _) => slots.erase key
    | none => slots
  else slots

def insertBounded (slots : Slots) (key : CacheKey) (slot : Slot) (now pick : Nat) : Slots :=
  let slots :=
    if policy.bounds.maxEntries ≤ slots.keys.length ∧ slots.lookup key = none then evictPressure policy slots now pick
    else slots
  slots.insert key slot

/-! ### Flights and callers -/

inductive FlightPhase
  | spawned
  | lookup (deadline : Nat)
  | store (now : Nat) (slot : Option Slot) (outcome : FlightResult)
  | send (outcome : FlightResult)
  | sent (outcome : FlightResult)
  /-- The task was dropped or panicked. -/
  | dropped

structure Flight where
  key : CacheKey
  timeout : Nat
  phase : FlightPhase

/-- A flight is known by its place in the list of all flights. -/
structure DnsState where
  now : Nat
  slots : Slots
  flights : List Flight

/-- A call that gets past the checks of its arguments. -/
structure DnsCall where
  queryClass : QueryClass
  name : Bytes
  family : IpFamily
  effective : Nat
  normalized : Bytes
  normalizes : normalizeName name = .ok normalized

def DnsCall.key (call : DnsCall) : CacheKey := ⟨call.queryClass, call.normalized⟩

inductive DnsTask
  | idle
  | enter (call : DnsCall)
  | joined (call : DnsCall) (flight : Nat)
  | waiting (call : DnsCall) (flight deadline : Nat)

inductive DnsAnswer
  | call (queryClass : QueryClass) (name : Bytes) (family : IpFamily) (budget : Nat)
  | tick (elapsed : Nat)
  | flight (flight : Nat) (result : Upstream) (pick : Nat)
  | drop (flight : Nat)
  | proceed (permit : Bool) (pick : Nat)
  | cancel

inductive DnsEvent
  | returned (result : FlightResult)
  | hit (call : DnsCall) (slot : Slot) (now : Nat) (result : FlightResult)
  | joined (call : DnsCall) (flight : Nat)
  | settled (flight : Nat) (key : CacheKey) (now : Nat) (result : Upstream)
  | answered (call : DnsCall) (flight now : Nat) (result : FlightResult)
  | timedOut (call : DnsCall) (flight deadline now : Nat)

variable (policy : ResolverPolicy) (parseIp : Bytes → Option IpAddr)

namespace DnsState

variable (s : DnsState)

def setPhase (id : Nat) (flight : Flight) (phase : FlightPhase) : DnsState :=
  { s with flights := s.flights.set id { flight with phase } }

def fly (id : Nat) (result : Upstream) (pick : Nat) : Option (DnsState × Option DnsEvent) :=
  match s.flights[id]? with
  | none => none
  | some flight =>
    match flight.phase with
    | .spawned => some (s.setPhase id flight (.lookup (s.now + flight.timeout)), none)
    | .lookup deadline =>
      if result = .timedOut ∧ s.now < deadline then none
      else
        let (slot, outcome) := settle policy flight.key.queryClass s.now result
        some (s.setPhase id flight (.store s.now slot outcome), some (.settled id flight.key s.now result))
    | .store now slot outcome =>
      let slots := match slot with
        | some slot => insertBounded policy s.slots flight.key slot now pick
        | none => s.slots.erase flight.key
      some ({ s with slots }.setPhase id flight (.send outcome), none)
    | .send outcome => some (s.setPhase id flight (.sent outcome), none)
    | .sent _ | .dropped => none

def dropFlight (id : Nat) : Option DnsState :=
  match s.flights[id]? with
  | none => none
  | some flight =>
    match flight.phase with
    | .sent _ | .dropped => none
    | _ => some (s.setPhase id flight .dropped)

/-- The locked part of `resolve_class`. -/
def enter (s : DnsState) (call : DnsCall) (permit : Bool) (pick : Nat) : DnsState × DnsTask × Option DnsEvent :=
  let expired : DnsState × DnsTask × Option DnsEvent := ({ s with slots := s.slots.erase call.key }, .enter call, none)
  let hit (slot : Slot) (result : FlightResult) : DnsState × DnsTask × Option DnsEvent :=
    if slot.isExpired s.now then expired else (s, .idle, some (.hit call slot s.now result))
  match s.slots.lookup call.key with
  | some (.positive ips expires) => hit (.positive ips expires) (filterFamily ips call.family)
  | some (.negative nxdomain expires) => hit (.negative nxdomain expires) (.error (.notFound nxdomain))
  | some (.inFlight flight) => (s, .joined call flight, some (.joined call flight))
  | none =>
    if !permit then (s, .idle, some (.returned (.error .limit)))
    else
      let slots := if policy.bounds.maxEntries ≤ s.slots.keys.length then evictPressure policy s.slots s.now pick else s.slots
      let id := s.flights.length
      ({ s with slots := slots.insert call.key (.inFlight id), flights := s.flights ++ [⟨call.key, call.effective, .spawned⟩] },
        .joined call id, some (.joined call id))

/-- What `receiver.recv()` finds: an outcome, or a channel whose last sender is gone. -/
def received (key : CacheKey) (flight : Nat) : Option (Option FlightResult) :=
  match s.flights[flight]? with
  | some ⟨_, _, .sent outcome⟩ => some (some outcome)
  | some ⟨_, _, .dropped⟩ => if s.slots.lookup key = some (.inFlight flight) then none else some none
  | _ => none

end DnsState

/-- The next action of a thread: a caller's, or one of the flights or of the clock when it is idle. -/
def dnsProgram {ι : Type} : Program ι DnsAnswer DnsState DnsTask DnsEvent := fun _ answer s task =>
  match task, answer with
  | .idle, .call queryClass name family budget =>
    match h : normalizeName name with
    | .error error => some (s, .idle, some (.returned (.error error)))
    | .ok normalized =>
      match parseIp normalized with
      | some ip => some (s, .idle, some (.returned (filterFamily [ip] family)))
      | none =>
        let effective := min budget policy.timeout
        if effective = 0 then some (s, .idle, some (.returned (.error .timeout)))
        else some (s, .enter ⟨queryClass, name, family, effective, normalized, h⟩, none)
  | .idle, .tick elapsed => some ({ s with now := s.now + elapsed }, .idle, none)
  | .idle, .flight id result pick => (s.fly policy id result pick).map fun (s, event) => (s, .idle, event)
  | .idle, .drop id => (s.dropFlight id).map fun s => (s, .idle, none)
  | .enter call, .proceed permit pick => some (s.enter policy call permit pick)
  | .joined call flight, .proceed _ _ => some (s, .waiting call flight (s.now + call.effective), none)
  | .waiting .., .cancel => some (s, .idle, none)
  | .waiting call flight deadline, .proceed _ _ =>
    match s.received call.key flight with
    | some (some outcome) => some (s, .idle, some (.answered call flight s.now (outcome.bind (filterFamily · call.family))))
    | some none => some (s, .enter call, none)
    | none => if deadline ≤ s.now then some (s, .idle, some (.timedOut call flight deadline s.now)) else none
  | _, _ => none

end RustReality.Dns
