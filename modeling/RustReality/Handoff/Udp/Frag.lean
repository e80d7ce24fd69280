import RustReality.Handoff.Udp.Wire
import RustReality.Lib.Vec

/-!
# Fragmentation and bounded reassembly

`splitFragments` cuts a DATA plaintext into FRAG plaintexts; a `Reassembler` collects fragments of
several datagrams in groups, under a limit on groups, on buffered bytes and on age. The places
where the code would panic or could loop for ever are kept as `Fault`s of the model: an unsigned
subtraction below zero, an index out of bounds, a loop that outlives its fuel. Instants and
durations are natural numbers, and `saturating_duration_since` is natural subtraction.
-/

namespace RustReality.Handoff.Udp

def maxFragments : Nat := 16

structure ReassemblyLimits where
  maxGroups : Nat
  maxBytes : Nat
  timeout : Nat
  deriving DecidableEq, Repr

def encodeFragment (fragmentId : UInt32) (index count : Nat) (chunk : Bytes) : Bytes :=
  beBytes 4 fragmentId.toNat ++ [UInt8.ofNat index, UInt8.ofNat count] ++ chunk

def splitFragments (fragmentId : UInt32) (plaintext : Bytes) (maxChunk : Nat) :
    Except UdpPacketError (List Bytes) :=
  if plaintext.isEmpty ∨ plaintext.length > maxDataPlaintextLen ∨ maxChunk = 0 then .error .length
  else
    let count := (plaintext.length + (maxChunk - 1)) / maxChunk
    if count > maxFragments then .error .length
    else
      .ok ((Vec.chunks maxChunk plaintext).zipIdx.map fun (chunk, index) =>
        encodeFragment fragmentId index count chunk)

structure Group where
  id : UInt32
  count : Nat
  chunks : List (Option Bytes)
  received : Nat
  bytes : Nat
  started : Nat
  deriving DecidableEq, Repr

structure Reassembler where
  limits : ReassemblyLimits
  groups : List Group
  bytes : Nat
  dropped : Nat
  deriving DecidableEq, Repr

/-- What would stop the code other than by returning. -/
inductive Fault
  | underflow | outOfBounds | diverges
  deriving DecidableEq, Repr

structure Fragment where
  id : UInt32
  index : Nat
  count : Nat
  chunk : Bytes
  two_le_count : 2 ≤ count
  count_le : count ≤ maxFragments
  index_lt : index < count
  chunk_pos : 0 < chunk.length
  chunk_le : chunk.length ≤ maxDataPlaintextLen
  deriving DecidableEq, Repr

def parseFragment (limits : ReassemblyLimits) (fragment : Bytes) : Except UdpPacketError Fragment :=
  if hlen : fragment.length ≤ fragHeaderLen then .error .length
  else
    let id := UInt32.ofNat (ofBe (fragment.take 4))
    let index := (fragment.getD 4 0).toNat
    let count := (fragment.getD 5 0).toNat
    if hcount : ¬(2 ≤ count ∧ count ≤ maxFragments) ∨ index ≥ count then .error .length
    else
      let chunk := fragment.drop fragHeaderLen
      if hchunk : chunk.length > maxDataPlaintextLen ∨ chunk.length > limits.maxBytes then .error .length
      else
        .ok { id, index, count, chunk
              two_le_count := by omega
              count_le := by omega
              index_lt := by omega
              chunk_pos := by simp only [chunk, List.length_drop]; omega
              chunk_le := by omega }

namespace Group

def start (id : UInt32) (count now : Nat) : Group :=
  { id, count, chunks := List.replicate count none, received := 0, bytes := 0, started := now }

/-- The group after chunk `index` was stored. -/
def fill (g : Group) (index : Nat) (chunk : Bytes) : Group :=
  { g with
    chunks := g.chunks.set index (some chunk)
    received := g.received + 1
    bytes := g.bytes + chunk.length }

def whole (g : Group) : Bytes := g.chunks.reduceOption.flatten

end Group

namespace Reassembler

def new (limits : ReassemblyLimits) : Reassembler := { limits, groups := [], bytes := 0, dropped := 0 }

variable (r : Reassembler)

def remove (index : Nat) : Except Fault Reassembler :=
  match Vec.swapRemove r.groups index with
  | none => .error .outOfBounds
  | some (group, groups) =>
    if r.bytes < group.bytes then .error .underflow
    else .ok { r with groups, bytes := r.bytes - group.bytes }

/-- `remove` followed by `dropped += 1`. -/
def drop (index : Nat) : Except Fault Reassembler := do
  let r ← r.remove index
  return { r with dropped := r.dropped + 1 }

def expireLoop (now : Nat) : Nat → Reassembler → Nat → Except Fault Reassembler
  | 0, r, index => if index < r.groups.length then .error .diverges else .ok r
  | fuel + 1, r, index =>
    match r.groups[index]? with
    | none => .ok r
    | some group =>
      if now - group.started ≥ r.limits.timeout then do
        let r ← r.drop index
        expireLoop now fuel r index
      else expireLoop now fuel r (index + 1)

def expire (now : Nat) : Except Fault Reassembler :=
  expireLoop now r.groups.length r 0

/-- Index of the first group with the smallest start among those that pass the filter. -/
def oldest (keep : Group → Bool) : Option Nat :=
  ((r.groups.zipIdx.filter fun p => keep p.1).argmin fun p => p.1.started).map Prod.snd

def evictOldest : Except Fault Reassembler :=
  match r.oldest fun _ => true with
  | some index => r.drop index
  | none => .ok r

/-- `while self.groups.len() >= self.limits.max_groups`. -/
def evictLoop : Nat → Reassembler → Except Fault Reassembler
  | 0, r => if r.groups.length ≥ r.limits.maxGroups then .error .diverges else .ok r
  | fuel + 1, r =>
    if r.groups.length ≥ r.limits.maxGroups then do
      let r ← r.evictOldest
      evictLoop fuel r
    else .ok r

def position (id : UInt32) : Option Nat := r.groups.findIdx? fun group => group.id == id

def locate (id : UInt32) (count now : Nat) : Except Fault (Reassembler × Nat) :=
  match r.position id with
  | some position => .ok (r, position)
  | none => do
    let r ← evictLoop r.groups.length r
    return ({ r with groups := r.groups ++ [Group.start id count now] }, r.groups.length)

/-- `while self.bytes + chunk.len() > self.limits.max_bytes`; the flag tells whether the fragment
may still be stored or its own group had to go. -/
def makeRoom (id : UInt32) (len : Nat) : Nat → Reassembler → Except Fault (Reassembler × Bool)
  | 0, r => if r.bytes + len > r.limits.maxBytes then .error .diverges else .ok (r, true)
  | fuel + 1, r =>
    if r.bytes + len > r.limits.maxBytes then
      match r.oldest fun group => group.id != id with
      | some other => do
        let r ← r.drop other
        makeRoom id len fuel r
      | none =>
        match r.position id with
        | some own => do
          let r ← r.drop own
          return (r, false)
        | none => .ok ({ r with dropped := r.dropped + 1 }, false)
    else .ok (r, true)

/-- The tail of `insert`: store the chunk, and hand out the datagram when it is complete. -/
def store (f : Fragment) : Except Fault (Reassembler × Except UdpPacketError (Option Bytes)) :=
  match r.position f.id with
  | none => .ok (r, .error .length)
  | some position =>
    match r.groups[position]? with
    | none => .error .outOfBounds
    | some group =>
      if f.index ≥ group.chunks.length then .error .outOfBounds
      else
        let group := group.fill f.index f.chunk
        let r := { r with
          groups := r.groups.set position group
          bytes := r.bytes + f.chunk.length }
        if group.received < group.count then .ok (r, .ok none)
        else do
          let r ← r.remove position
          return (r, .ok (some group.whole))

def accept (position : Nat) (f : Fragment) : Except Fault (Reassembler × Except UdpPacketError (Option Bytes)) :=
  match r.groups[position]? with
  | none => .error .outOfBounds
  | some group =>
    if group.count ≠ f.count then do
      let r ← r.drop position
      return (r, .ok none)
    else
      match group.chunks[f.index]? with
      | none => .error .outOfBounds
      | some (some _) => .ok (r, .ok none)
      | some none =>
        if group.bytes + f.chunk.length > maxDataPlaintextLen then do
          let r ← r.drop position
          return (r, .ok none)
        else do
          let (r, room) ← makeRoom f.id f.chunk.length r.groups.length r
          if room then r.store f else return (r, .ok none)

def insert (fragment : Bytes) (now : Nat) : Except Fault (Reassembler × Except UdpPacketError (Option Bytes)) := do
  let r ← r.expire now
  match parseFragment r.limits fragment with
  | .error e => return (r, .error e)
  | .ok f =>
    let (r, position) ← r.locate f.id f.count now
    r.accept position f

end Reassembler

end RustReality.Handoff.Udp
