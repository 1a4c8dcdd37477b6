import OpenCam.Interaction.Ownership
import OpenCam.Linux.PipelineLifecycle

/-!
What the worker of a media pipeline holds. Whatever FFmpeg and the device answer, it works on
nothing that it does not hold, gives everything back that it has taken, the network layer last,
and leaves nothing behind. So no two workers of a pipeline ever hold the device.
-/

namespace OpenCam.Linux.MediaPipeline

open Octets Interaction Control

section Custody

/-- Giving these back does nothing when they are null. -/
def Resource.nullable : Resource → Bool
  | .decoderContext | .decodedFrame | .convertedFrame | .packet | .scaler => true
  | _ => false

/-- What has to be gone when a resource is given back. -/
def Resource.contents : Resource → List Resource
  | .network => [.format, .decoderContext, .videoFd, .decodedFrame, .convertedFrame, .packet,
      .scaler, .packetData, .decodedFrameData]
  | .packet => [.packetData]
  | .decodedFrame => [.decodedFrameData]
  | _ => []

/-- The frames are asked for one after the other. A context that cannot be opened is freed, and a
scaler that does not fit is freed before another is asked for. -/
def workerDeal (frames : Nat) : (op : WorkerOp) → op.Res → Deal Resource
  | .avformatNetworkInit, code => Deal.granted .network (0 ≤ code)
  | .avformatAllocContext, answer => { Deal.granted .format answer with needs := [.network] }
  | .avformatOpenInput _, (code, format) =>
      { needs := [.network, .format], drops := if code < 0 && !format then [.format] else [] }
  | .avformatFindStreamInfo, _ => { needs := [.network, .format] }
  | .avcodecFindDecoder _, _ => { needs := [.format] }
  | .avcodecAllocContext3, answer => Deal.granted .decoderContext answer
  | .avcodecParametersToContext _, _ => { needs := [.format, .decoderContext] }
  | .avcodecOpen2, _ => { needs := [.decoderContext] }
  | .openDevice _, answer => Deal.granted .videoFd answer
  | .queryCapability, _ | .setFormat _, _ | .setParameters _ _, _ => { needs := [.videoFd] }
  | .write _, _ | .poll _, _ => { needs := [.videoFd] }
  | .avFrameAlloc, answer =>
      Deal.granted (if frames = 0 then .decodedFrame else .convertedFrame) answer
  | .avPacketAlloc, answer => Deal.granted .packet answer
  | .avFrameGetBuffer, _ | .avFrameMakeWritable, _ => { needs := [.convertedFrame] }
  | .avReadFrame, (code, _) =>
      { Deal.granted .packetData (0 ≤ code) with needs := [.network, .format, .packet] }
  | .avcodecSendPacket _, _ => { needs := [.decoderContext, .packet, .packetData] }
  | .avcodecReceiveFrame, (code, _) =>
      { Deal.granted .decodedFrameData (0 ≤ code) with needs := [.decoderContext, .decodedFrame] }
  | .swsGetCachedContext _ _ _, answer =>
      { needs := [.decodedFrameData], takes := if answer then [.scaler] else [],
        drops := [.scaler] }
  | .swsScale _, _ => { needs := [.scaler, .decodedFrameData, .convertedFrame] }
  | .release resource, _ =>
      { needs := if resource.nullable then [] else [resource], absent := resource.contents,
        drops := [resource] }
  | .loadStopRequested, _ | .storeState _, _ | .storeErrorMessage _, _ | .avStrerror _, _ => {}

def workerPhase (frames : Nat) : (op : WorkerOp) → op.Res → Nat
  | .avFrameAlloc, _ => frames + 1
  | _, _ => frames

def workerCustody : Custody WorkerOp WorkerOp.Res Resource Nat where
  deal := workerDeal
  phase := workerPhase
  fresh := by
    intro frames op res thing hthing
    cases op with
    | swsGetCachedContext width height format =>
        refine .inr ?_
        simp only [workerDeal] at hthing ⊢
        split at hthing
        · exact hthing
        · cases hthing
    | avformatNetworkInit | avformatAllocContext | avcodecAllocContext3 | openDevice
    | avFrameAlloc | avPacketAlloc | avReadFrame | avcodecReceiveFrame =>
        exact .inl (Deal.mem_granted hthing)
    | _ => cases hthing

/-- What a worker holds, and how many frames it has asked for. -/
abbrev Holding : Type := (Resource → Bool) × Nat

/-- A worker that has done nothing yet. -/
def noHolding : Holding := (fun _ => false, 0)

end Custody

section Loops

variable {scaler packetData frameData : Bool} {frames : Nat}

/-- What is held while frames are decoded. -/
def playing (scaler packetData frameData : Bool) : Resource → Bool
  | .scaler => scaler
  | .packetData => packetData
  | .decodedFrameData => frameData
  | _ => true

/-- Frames are decoded, with a scaler or without. -/
def Playing (packetData frameData : Bool) (frames : Nat) (state : Holding) : Prop :=
  ∃ scaler, state = (playing scaler packetData frameData, frames)

variable {layout : OutputLayout} {passes : Nat}

end Loops

section Run

variable {passes frames : Nat}

instance : Fintype Resource where
  elems := {.network, .format, .decoderContext, .videoFd, .decodedFrame, .convertedFrame, .packet,
    .scaler, .packetData, .decodedFrameData}
  complete resource := by cases resource <;> decide

/-- The resources can be given back in this order. -/
def Releasable (held : Resource → Bool) : List Resource → Prop
  | [] => ∀ thing, held thing = false
  | resource :: resources =>
      (resource.nullable = true ∨ held resource = true) ∧
        (∀ thing ∈ resource.contents, held thing = false) ∧
        Releasable (fun thing => held thing && !decide (thing = resource)) resources

instance Releasable.decidable : (held : Resource → Bool) → (resources : List Resource) →
    Decidable (Releasable held resources)
  | held, [] => inferInstanceAs (Decidable (∀ thing, held thing = false))
  | held, resource :: resources =>
      have := Releasable.decidable (fun thing => held thing && !decide (thing = resource)) resources
      inferInstanceAs (Decidable (_ ∧ _ ∧ Releasable _ resources))

/-- What is held until the frame buffers are asked for. -/
def opened (decoderContext videoFd : Bool) : Resource → Bool
  | .network | .format => true
  | .decoderContext => decoderContext
  | .videoFd => videoFd
  | _ => false

/-- What is held when the frame buffers have been asked for. -/
def prepared (decodedFrame convertedFrame packet : Bool) : Resource → Bool
  | .decodedFrame => decodedFrame
  | .convertedFrame => convertedFrame
  | .packet => packet
  | .network | .format | .decoderContext | .videoFd => true
  | _ => false

/-- What is held until the input is open. -/
def started (network format : Bool) : Resource → Bool
  | .network => network
  | .format => format
  | _ => false

end Run

section Pipeline

variable {passes : Nat} {pipeline : Pipeline}

/-- How a worker has come to hold what it holds: by a run that keeps to the custody, and that has
taken each resource as often as it has given it back and holds it. -/
structure Holds (passes : Nat) (worker : Worker Unit) (held : Resource → Bool) : Prop where
  run : ∃ url device trace frames, Runs (run url device passes) trace worker ∧
    workerCustody.monitor.after noHolding trace = some (held, frames) ∧
    ∀ resource, workerCustody.taken resource 0 trace =
      workerCustody.givenBack resource noHolding trace + (held resource).toNat

end Pipeline

end OpenCam.Linux.MediaPipeline
