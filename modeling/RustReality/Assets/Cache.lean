import RustReality.Lib.Bytes
import RustReality.Lib.Mealy

/-!
# The asset cache

A cached asset is two files: its bytes, and the validators they were received with. A load sends the
validators if they are of its own source, and reads the cached bytes if the server has nothing newer. What it
downloads replaces the two files one after the other, each by a rename, so a load that fails or a process that
stops in between leaves new bytes beside old validators.
-/

namespace RustReality.Assets

/-- The validators of a download; `received`, which is not in the file, is the body they came with. -/
structure CacheMetadata where
  source : String
  etag : Option String
  lastModified : Option String
  received : Bytes
  deriving DecidableEq

structure CacheFiles where
  data : Option Bytes := none
  metadata : Option CacheMetadata := none

inductive Answer
  | ok (bytes : Bytes) (etag lastModified : Option String)
  | notModified
  /-- Another status, or no answer. -/
  | failed
  deriving DecidableEq

/-- How far a commit gets before it ends, fails or is cut off. -/
inductive Progress
  | nothing
  | data
  | metadata
  deriving DecidableEq

inductive AssetLoadError
  | tooLarge
  | download
  | invalid

inductive AssetCandidate
  | cached (bytes : Bytes)
  | downloaded (bytes : Bytes) (metadata : CacheMetadata)

/-- One load of an asset: what it asks for, and what the host, the server and the parser do. -/
structure Load where
  url : String
  maximum : Nat
  dataIsFile : Bool
  metadataReadable : Bool
  dataReadable : Bool
  answer : Answer
  parses : Bytes → Bool
  progress : Progress

def responseHeader (value : Option String) : Option String := value.filter fun value => value.utf8ByteSize ≤ 8 * 1024

namespace Load

variable (self : Load) (files : CacheFiles)

def readBounded : Option Bytes := files.data.filter fun bytes => self.dataReadable && bytes.length ≤ self.maximum

def readCacheMetadata : Option CacheMetadata :=
  files.metadata.filter fun metadata => self.metadataReadable && metadata.source = self.url

/-- The headers `If-None-Match` and `If-Modified-Since` of the request. -/
def validators : Option String × Option String :=
  match if self.dataIsFile && files.data.isSome then self.readCacheMetadata files else none with
  | some metadata => (metadata.etag, metadata.lastModified)
  | none => (none, none)

def cachedCandidate : Except AssetLoadError AssetCandidate :=
  match self.readBounded files with
  | some bytes => .ok (.cached bytes)
  | none => .error .download

def fetch : Except AssetLoadError AssetCandidate :=
  match self.answer with
  | .ok bytes etag lastModified =>
    if self.maximum < bytes.length then .error .tooLarge
    else .ok (.downloaded bytes ⟨self.url, responseHeader etag, responseHeader lastModified, bytes⟩)
  | .notModified | .failed => self.cachedCandidate files

/-- The bytes that are used, and the update of the cache if they were downloaded. -/
def parseCandidate : AssetCandidate → Except AssetLoadError (Bytes × Option (Bytes × CacheMetadata))
  | .cached bytes => if self.parses bytes then .ok (bytes, none) else .error .invalid
  | .downloaded bytes metadata =>
    if self.parses bytes then .ok (bytes, some (bytes, metadata))
    else match (self.readBounded files).filter self.parses with
      | some cached => .ok (cached, none)
      | none => .error .invalid

def load : Except AssetLoadError (Bytes × Option (Bytes × CacheMetadata)) := do
  self.parseCandidate files (← self.fetch files)

end Load

def CacheFiles.commit (self : CacheFiles) (bytes : Bytes) (metadata : CacheMetadata) : Progress → CacheFiles
  | .nothing => self
  | .data => { self with data := some bytes }
  | .metadata => ⟨some bytes, some metadata⟩

namespace CacheFiles

def next (self : CacheFiles) (load : Load) : CacheFiles :=
  match load.load self with
  | .ok (_, some (bytes, metadata)) => self.commit bytes metadata load.progress
  | _ => self

def run (loads : List Load) : CacheFiles := loads.foldl next {}

/-- The cached bytes a load uses because nothing is newer. -/
def Honoured (self : CacheFiles) (load : Load) (bytes : Bytes) : Prop :=
  load.answer = .notModified ∧ load.load self = .ok (bytes, none)

/-- The bytes are those the validators of the request were received with, from the same source. -/
def Matches (self : CacheFiles) (load : Load) (bytes : Bytes) : Prop :=
  ∃ metadata ∈ self.metadata, load.validators self = (metadata.etag, metadata.lastModified) ∧
    metadata.source = load.url ∧ metadata.received = bytes

/-- The load's commit, if there is one, does not end between the two renames, and the server answers that
nothing is newer only to a request with validators. -/
def Regular (self : CacheFiles) (load : Load) : Prop :=
  load.progress ≠ .data ∧ (load.answer = .notModified → load.validators self ≠ (none, none))

/-- The two files belong to one download. -/
def Paired (files : CacheFiles) : Prop := ∀ metadata ∈ files.metadata, files.data = some metadata.received

variable {self : CacheFiles} {load : Load} {bytes : Bytes}

theorem received_of_load {used : Bytes} {metadata : CacheMetadata} (h : load.load self = .ok (used, some (bytes, metadata))) :
    metadata.received = bytes := by
  simp only [Load.load, Load.fetch, Load.cachedCandidate, Load.parseCandidate, bind, Except.bind] at h
  grind

theorem Paired.next (hpaired : self.Paired) (hregular : self.Regular load) : (self.next load).Paired := by
  unfold CacheFiles.next
  split
  · next used bytes metadata hload =>
    cases hprogress : load.progress with
    | nothing => exact hpaired
    | data => exact absurd hprogress hregular.1
    | metadata =>
      rintro _ ⟨⟩
      exact congrArg some (received_of_load hload).symm
  · exact hpaired

theorem data_of_honoured (h : self.Honoured load bytes) : self.data = some bytes := by
  obtain ⟨hanswer, hload⟩ := h
  simp only [Load.load, Load.fetch, hanswer, Load.cachedCandidate] at hload
  split at hload
  · next cached hread =>
    obtain ⟨hdata, -⟩ := Option.filter_eq_some_iff.1 hread
    simp only [bind, Except.bind, Load.parseCandidate] at hload
    split_ifs at hload
    cases hload
    exact hdata
  · cases hload

theorem metadata_of_validators (h : load.validators self ≠ (none, none)) :
    ∃ metadata ∈ self.metadata, load.validators self = (metadata.etag, metadata.lastModified) ∧ metadata.source = load.url := by
  unfold Load.validators at h ⊢
  split at h
  · next metadata hm =>
    split_ifs at hm
    obtain ⟨hfile, hsource⟩ := Option.filter_eq_some_iff.1 hm
    simp only [Bool.and_eq_true, decide_eq_true_eq] at hsource
    exact ⟨metadata, hfile, rfl, hsource.2⟩
  · exact absurd rfl h

/-- In a run of regular loads the cached bytes match the validators whenever a not-modified answer is
honoured. -/
theorem not_modified_matches {loads : List Load} (hregular : ∀ k (hk : k < loads.length), (run (loads.take k)).Regular loads[k])
    (k : ℕ) (hk : k < loads.length) {bytes : Bytes} (h : (run (loads.take k)).Honoured loads[k] bytes) :
    (run (loads.take k)).Matches loads[k] bytes := by
  have hinit : Paired {} := by rintro _ ⟨⟩
  have hpaired : (run (loads.take k)).Paired := Mealy.foldl_invariant hinit (fun _ _ => Paired.next) hregular k
  obtain ⟨metadata, hfile, hvalidators, hsource⟩ := metadata_of_validators ((hregular k hk).2 h.1)
  refine ⟨metadata, hfile, hvalidators, hsource, ?_⟩
  exact Option.some_injective _ ((hpaired metadata hfile).symm.trans (data_of_honoured h))

def download (url : String) (byte : UInt8) (progress : Progress) : Load :=
  ⟨url, 8, true, true, true, .ok [byte] (some url) none, fun _ => true, progress⟩

def confirm : Load := ⟨"a", 8, true, true, true, .notModified, fun _ => true, .metadata⟩

theorem not_modified_matches_confirmed : (run [download "b" 2 .nothing, download "a" 1 .metadata]).Matches confirm [1] := by
  refine @not_modified_matches [download "b" 2 .nothing, download "a" 1 .metadata, confirm] ?_ 2 (by decide) [1] ⟨rfl, rfl⟩
  unfold Regular
  decide

/-- A download from a second source is cut off after the data; the first source then confirms its own validator,
and the bytes of the second are used. -/
theorem cut_off_commit_mismatches :
    let cache := run [download "a" 1 .metadata, download "b" 2 .data]
    cache.Honoured confirm [2] ∧ confirm.validators cache = (some "a", none) ∧ ¬ cache.Matches confirm [2] := by
  refine ⟨⟨rfl, rfl⟩, rfl, ?_⟩
  rintro ⟨_, ⟨⟩, -, -, ⟨⟩⟩

end CacheFiles

end RustReality.Assets
