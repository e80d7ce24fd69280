import RustReality.Vision.Error
import RustReality.Vision.RoundTrip
import RustReality.Tls.WriterSpec

/-!
# Vision frames in TLS records

`writeVisionContent` cuts content into chunks of the largest frame, packs as many complete frames as
fit one record and writes record after record.
-/

namespace RustReality.Vision
open Vless (UserId)
open Net Tls

def maxVisionContentAfterFirstFrame : Nat := visionFrameSize - headerSize
def maxFramesPerOuterRecord : Nat := 4

variable {ρ S K : Type} (rng : PaddingRng ρ) (crypto : RecordCrypto S K)

structure VisionWriter (ρ S K : Type) where
  writer : TlsApplicationWriter S K
  encoder : VisionEncoder ρ

structure ContentPlan where
  content : Bytes
  finalCommand : VisionCommand
  longPadding : Bool

namespace ContentPlan

variable (self : ContentPlan)

def chunkCount : Nat :=
  (self.content.length + (maxVisionContentAfterFirstFrame - 1)) / maxVisionContentAfterFirstFrame

def chunk (index : Nat) : Bytes :=
  let start := index * maxVisionContentAfterFirstFrame
  slice self.content start (min self.content.length (start + maxVisionContentAfterFirstFrame))

def command (index : Nat) : VisionCommand :=
  if index + 1 = self.chunkCount then self.finalCommand else .continue

/-- Plan the frames of one record: up to four, while the next one fits behind the others. -/
def packFrames (self : ContentPlan) : Nat → VisionEncoder ρ → Nat → Nat →
    VisionEncoder ρ × Except VisionEncodeError (List (VisionFramePlan × Bytes))
  | 0, encoder, _, _ => (encoder, .ok [])
  | slots + 1, encoder, wireLen, index =>
    if index < self.chunkCount then
      match encoder.planWithin rng (self.chunk index).length (self.command index) self.longPadding
        (maxPlaintextLen - wireLen) with
      | (encoder, .error e) => (encoder, .error e)
      | (encoder, .ok none) => (encoder, .ok [])
      | (encoder, .ok (some plan)) =>
        match packFrames self slots encoder (wireLen + plan.wireLen) (index + 1) with
        | (encoder, .error e) => (encoder, .error e)
        | (encoder, .ok frames) => (encoder, .ok ((plan, self.chunk index) :: frames))
    else (encoder, .ok [])

end ContentPlan

namespace VisionWriter

def assembleFrames (encoder : VisionEncoder ρ) (frames : List (VisionFramePlan × Bytes)) : Bytes :=
  frames.flatMap fun frame => encoder.assemble frame.1 frame.2 (List.replicate frame.1.wireLen 0)

def commitFrames (encoder : VisionEncoder ρ) (frames : List (VisionFramePlan × Bytes)) : VisionEncoder ρ :=
  frames.foldl (fun encoder frame => encoder.commit frame.1) encoder

variable (self : VisionWriter ρ S K)

def writeFrames (frames : List (VisionFramePlan × Bytes)) : VisionWriter ρ S K × Except VisionSessionError Unit :=
  match self.writer.writeAssembled crypto (assembleFrames self.encoder frames) with
  | (writer, .error e) => ({ self with writer }, .error (.tls e))
  | (writer, .ok ()) => (⟨writer, commitFrames self.encoder frames⟩, .ok ())

def writeChunks (plan : ContentPlan) : Nat → VisionWriter ρ S K → Nat →
    VisionWriter ρ S K × Except VisionSessionError Unit
  | 0, self, _ => (self, .ok ())
  | fuel + 1, self, index =>
    if index < plan.chunkCount then
      match plan.packFrames rng maxFramesPerOuterRecord self.encoder 0 index with
      | (encoder, .error e) => ({ self with encoder }, .error (.visionEncode e))
      | (encoder, .ok frames) =>
        match writeFrames crypto { self with encoder } frames with
        | (self, .error e) => (self, .error e)
        | (self, .ok ()) => writeChunks plan fuel self (index + frames.length)
    else (self, .ok ())

def writeVisionFrame (content : Bytes) (command : VisionCommand) (longPadding : Bool) :
    VisionWriter ρ S K × Except VisionSessionError Unit :=
  match self.encoder.plan rng content.length command longPadding with
  | (encoder, .error e) => ({ self with encoder }, .error (.visionEncode e))
  | (encoder, .ok plan) => writeFrames crypto { self with encoder } [(plan, content)]

def writeVisionContent (content : Bytes) (finalCommand : VisionCommand)
    (longPadding : Bool) : VisionWriter ρ S K × Except VisionSessionError Unit :=
  if content = [] then self.writeVisionFrame rng crypto [] finalCommand longPadding
  else
    let plan : ContentPlan := ⟨content, finalCommand, longPadding⟩
    writeChunks rng crypto plan plan.chunkCount self 0

end VisionWriter

def responseHeader : Bytes := [0, 0]

end RustReality.Vision
