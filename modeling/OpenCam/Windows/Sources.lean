import OpenCam.Interaction.Machine
import OpenCam.Windows.Manager
import OpenCam.Windows.Serializer
import OpenCam.Windows.StreamOptions

/-!
The devices that the Windows program knows: the connections of `Server` and the
descriptors of `RTSP::Manager`, which are two lists, and the index that the
manager sends its commands to. The window repeats these lists and is left out.
A step that the language leaves undefined has no next state.
-/

namespace OpenCam.Windows

open Octets Interaction

/-- `DeviceDescriptor::operator==`. -/
def DeviceDescriptor.sameDevice (descriptor other : DeviceDescriptor) : Bool :=
  descriptor.url == other.url && descriptor.name == other.name

/-- A connection object, with the descriptor that it was accepted with. -/
structure Connection where
  id : Nat
  descriptor : DeviceDescriptor
deriving DecidableEq

/-- `Server` and `Manager` together. `selected` is the connection of the device
that was selected last; the program does not keep it. -/
structure Sources where
  connections : List Connection := []
  descriptors : List DeviceDescriptor := []
  streamingDevice : Int := -1
  accepted : Nat := 0
  sent : List (Connection × Bytes) := []
  selected : Option Connection := none

inductive SourceAction where
  | connected (descriptor : DeviceDescriptor)
  | disconnected (connection : Connection)
  | selected (descriptorId : Nat) (options : StreamOptions)
  | command (call : ManagerCall)

namespace Sources

variable (sources : Sources)

/-- The connection that `Server::Send` addresses. -/
def recipient (id : Int) : Option Connection :=
  if id ≥ 0 ∧ id < sources.connections.length then sources.connections[id.toNat]? else none

/-- `Server::Send`. A message above the limit makes `Connection::Send` throw. -/
def Send (id : Int) (bytes : Bytes) : Sources :=
  match sources.recipient id with
  | none => sources
  | some connection =>
      if bytes.length > 64 * 1024 then sources
      else { sources with sent := sources.sent ++ [(connection, bytes)] }

def AddDescriptor (descriptor : DeviceDescriptor) : Sources :=
  { sources with descriptors := sources.descriptors ++ [descriptor] }

/-- `std::remove` and the `erase` of one element where it ends: undefined without
a match, and with several of them a moved-from element would be left. -/
def RemoveDescriptor (descriptor : DeviceDescriptor) : Option Sources :=
  let kept := sources.descriptors.filter fun other => !other.sameDevice descriptor
  if kept.length + 1 = sources.descriptors.length then some { sources with descriptors := kept }
  else none

/-- The registration at the end of `TCPDoAccept`. -/
def OnDeviceConnected (descriptor : DeviceDescriptor) : Sources :=
  let registered : Sources :=
    { sources with
      connections := sources.connections ++ [⟨sources.accepted, descriptor⟩]
      accepted := sources.accepted + 1 }
  registered.AddDescriptor descriptor

/-- The descriptor of the streaming device is read before the removal. -/
def OnDeviceDisconnected (descriptor : DeviceDescriptor) : Option Sources :=
  if sources.streamingDevice ≥ 0 ∧
      sources.descriptors.length ≤ sources.streamingDevice.toNat then none
  else sources.RemoveDescriptor descriptor

def OnConnectionDisconnected (connection : Connection) : Option Sources :=
  let erased : Sources :=
    { sources with connections := sources.connections.filter (· ≠ connection) }
  erased.OnDeviceDisconnected connection.descriptor

/-- The connection whose device has the descriptor at an index. -/
def connectionOf (descriptorId : Nat) : Option Connection :=
  sources.connections.find? fun connection =>
    sources.descriptors[descriptorId]? = some connection.descriptor

/-- `Connect2Stream` up to the start of the receiver. -/
def Connect2Stream (descriptorId : Nat) (options : StreamOptions) : Sources :=
  let chosen : Sources :=
    { sources with
      streamingDevice := descriptorId
      selected := sources.connectionOf descriptorId }
  match SerializeStreamOptions options with
  | .ok bytes => chosen.Send chosen.streamingDevice (bytes.set 0 Command.ACTIVATION)
  | .error _ => chosen

/-- One event. Connected devices differ in their descriptors, and the window
offers the indices of the descriptors only. -/
def step : SourceAction → Option Sources
  | .connected descriptor =>
      if sources.connections.any fun connection => connection.descriptor.sameDevice descriptor
      then none
      else some (sources.OnDeviceConnected descriptor)
  | .disconnected connection =>
      if connection ∈ sources.connections then sources.OnConnectionDisconnected connection
      else none
  | .selected descriptorId options =>
      if descriptorId < sources.descriptors.length
      then some (sources.Connect2Stream descriptorId options)
      else none
  | .command call => some (sources.Send sources.streamingDevice (packet call))

/-- The two lists belong together, and commands go to the device that was
selected last, or nowhere after it has disconnected. -/
structure CommandsReach (sources : Sources) : Prop where
  length : sources.connections.length = sources.descriptors.length
  paired : ∀ (i : Nat) (connection : Connection), sources.connections[i]? = some connection →
    sources.descriptors[i]? = some connection.descriptor
  sent : ∀ bytes : Bytes, bytes.length ≤ 64 * 1024 →
    (sources.Send sources.streamingDevice bytes).sent =
      sources.sent ++ ((sources.selected.filter (· ∈ sources.connections)).toList.map
        fun connection => (connection, bytes))
  streamingDevice : sources.streamingDevice = -1 ∨
    0 ≤ sources.streamingDevice ∧ sources.streamingDevice < sources.descriptors.length

/-- A disconnecting device stands behind the selected one in the lists. -/
def KeepsSelection : SourceAction → Prop
  | .disconnected connection => ∀ i : Nat, sources.connections[i]? = some connection →
      sources.streamingDevice < i
  | _ => True

section Invariant

variable {sources} {next : Sources}

/-- Between two events. -/
structure SourcesInvariant (sources : Sources) : Prop where
  aligned : sources.descriptors = sources.connections.map Connection.descriptor
  distinct : sources.connections.Pairwise fun connection other =>
    connection.descriptor.sameDevice other.descriptor = false
  selection : sources.streamingDevice = -1 ∧ sources.selected = none ∨
    ∃ (i : Nat) (connection : Connection), sources.streamingDevice = i ∧
      sources.connections[i]? = some connection ∧ sources.selected = some connection

theorem sameDevice_refl (descriptor : DeviceDescriptor) :
    descriptor.sameDevice descriptor = true := by
  simp [DeviceDescriptor.sameDevice]

theorem sameDevice_comm (descriptor other : DeviceDescriptor) :
    descriptor.sameDevice other = other.sameDevice descriptor := by
  rw [DeviceDescriptor.sameDevice, DeviceDescriptor.sameDevice, BEq.comm,
    BEq.comm (a := descriptor.name)]

theorem SourcesInvariant.nodup (h : SourcesInvariant sources) : sources.connections.Nodup := by
  refine h.distinct.imp fun {connection other} hdiffer hsame => ?_
  rw [hsame, sameDevice_refl] at hdiffer
  cases hdiffer

/-- Connections are told apart by their devices. -/
theorem SourcesInvariant.sameDevice_iff (h : SourcesInvariant sources)
    {connection other : Connection} (hmem : connection ∈ sources.connections)
    (hother : other ∈ sources.connections) :
    connection.descriptor.sameDevice other.descriptor = true ↔ connection = other := by
  constructor
  · intro hsame
    by_contra hne
    have : Std.Symm fun connection other : Connection =>
        connection.descriptor.sameDevice other.descriptor = false :=
      ⟨fun _ _ hdiffer => (sameDevice_comm ..).trans hdiffer⟩
    rw [h.distinct.forall hmem hother hne] at hsame
    cases hsame
  · rintro rfl
    exact sameDevice_refl _

theorem recipient_natCast (i : Nat) : sources.recipient i = sources.connections[i]? := by
  by_cases hlength : i < sources.connections.length
  · rw [recipient, if_pos (by omega), Int.toNat_natCast]
  · rw [recipient, if_neg (by omega), List.getElem?_eq_none (by omega)]

theorem Send_sent (id : Int) {bytes : Bytes} (hbytes : bytes.length ≤ 64 * 1024) :
    (sources.Send id bytes).sent = sources.sent ++
      (sources.recipient id).toList.map fun connection => (connection, bytes) := by
  have hfits : ¬ bytes.length > 64 * 1024 := by omega
  rw [Send]
  cases sources.recipient id with
  | none => simp
  | some connection => simp [hfits]

/-- Commands change nothing but what was sent. -/
theorem Send_eq (sources : Sources) (id : Int) (bytes : Bytes) :
    ∃ sent, sources.Send id bytes = { sources with sent := sent } := by
  rw [Send]
  split
  · exact ⟨sources.sent, rfl⟩
  · split
    · exact ⟨sources.sent, rfl⟩
    · exact ⟨_, rfl⟩

theorem Connect2Stream_eq (sources : Sources) (descriptorId : Nat) (options : StreamOptions) :
    ∃ sent, sources.Connect2Stream descriptorId options =
      { sources with
        streamingDevice := descriptorId
        selected := sources.connectionOf descriptorId
        sent := sent } := by
  unfold Connect2Stream
  cases SerializeStreamOptions options with
  | ok bytes => exact Send_eq { sources with
      streamingDevice := descriptorId
      selected := sources.connectionOf descriptorId } descriptorId _
  | error failure => exact ⟨sources.sent, rfl⟩

theorem SourcesInvariant.recipient_eq (h : SourcesInvariant sources) :
    sources.recipient sources.streamingDevice = sources.selected := by
  rcases h.selection with ⟨hnone, hselected⟩ | ⟨i, connection, hindex, hconnection, hselected⟩
  · rw [hnone, hselected, recipient, if_neg (by omega)]
  · rw [hindex, hselected, recipient_natCast, hconnection]

theorem SourcesInvariant.commandsReach (h : SourcesInvariant sources) :
    CommandsReach sources where
  length := by rw [h.aligned, List.length_map]
  paired := by
    intro i connection hconnection
    rw [h.aligned, List.getElem?_map, hconnection]
    rfl
  sent := by
    intro bytes hbytes
    rw [Send_sent _ hbytes, h.recipient_eq]
    rcases h.selection with ⟨-, hselected⟩ | ⟨i, connection, -, hconnection, hselected⟩
    · rw [hselected, Option.filter_none]
    · have hconnected := List.mem_of_getElem? hconnection
      rw [hselected, Option.filter_some, if_pos (by simpa using hconnected)]
  streamingDevice := by
    rcases h.selection with ⟨hnone, -⟩ | ⟨i, connection, hindex, hconnection, -⟩
    · exact .inl hnone
    · have hlength := (List.getElem?_eq_some_iff.mp hconnection).1
      rw [h.aligned, List.length_map, hindex]
      exact .inr (by omega)

/-- What is left after a disconnection. -/
theorem SourcesInvariant.disconnected (h : SourcesInvariant sources) {connection : Connection}
    (hstep : sources.step (.disconnected connection) = some next) :
    connection ∈ sources.connections ∧
      next = { sources with
        connections := sources.connections.erase connection
        descriptors := (sources.connections.erase connection).map Connection.descriptor } := by
  rw [step, Option.ite_none_right_eq_some] at hstep
  obtain ⟨hmem, hstep⟩ := hstep
  refine ⟨hmem, ?_⟩
  have herased : sources.connections.filter (· ≠ connection) =
      sources.connections.erase connection := by
    rw [h.nodup.erase_eq_filter]
    refine List.filter_congr fun other _ => ?_
    by_cases hsame : other = connection <;> simp [hsame]
  have hkept : (sources.descriptors.filter fun other =>
      !other.sameDevice connection.descriptor) =
      (sources.connections.erase connection).map Connection.descriptor := by
    rw [h.aligned, List.filter_map, ← herased]
    refine congrArg _ (List.filter_congr fun other hother => ?_)
    have hiff := h.sameDevice_iff hother hmem
    by_cases hsame : other = connection
    · simp [hsame, sameDevice_refl]
    · simp [hsame, Bool.eq_false_iff.mpr fun htrue => hsame (hiff.mp htrue)]
  simp only [OnConnectionDisconnected, OnDeviceDisconnected, Option.ite_none_left_eq_some,
    RemoveDescriptor, hkept, Option.ite_none_right_eq_some] at hstep
  rw [← Option.some.inj hstep.2.2, herased]

theorem SourcesInvariant.connected (h : SourcesInvariant sources) {descriptor : DeviceDescriptor}
    (hstep : sources.step (.connected descriptor) = some next) : SourcesInvariant next := by
  rw [step, Option.ite_none_left_eq_some] at hstep
  obtain ⟨hnew, hnext⟩ := hstep
  obtain rfl := Option.some.inj hnext
  have hdiffer : ∀ connection ∈ sources.connections,
      connection.descriptor.sameDevice descriptor = false := by
    simpa using hnew
  exact {
    aligned := by
      simp [OnDeviceConnected, AddDescriptor, h.aligned]
    distinct := by
      simp only [OnDeviceConnected, AddDescriptor, List.pairwise_append, List.mem_singleton]
      exact ⟨h.distinct, List.pairwise_singleton _ _,
        fun connection hmem other hother => hother ▸ hdiffer connection hmem⟩
    selection := by
      rcases h.selection with hnone | ⟨i, connection, hindex, hconnection, hselected⟩
      · exact .inl hnone
      · refine .inr ⟨i, connection, hindex, ?_, hselected⟩
        have hlength := (List.getElem?_eq_some_iff.mp hconnection).1
        exact (List.getElem?_append_left hlength).trans hconnection }

/-- The index that the window offers leads to the connection of the device. -/
theorem SourcesInvariant.connectionOf_eq (h : SourcesInvariant sources) {i : Nat}
    {connection : Connection} (hconnection : sources.connections[i]? = some connection) :
    sources.connectionOf i = some connection := by
  have hmem := List.mem_of_getElem? hconnection
  have hdescriptor : sources.descriptors[i]? = some connection.descriptor := by
    rw [h.aligned, List.getElem?_map, hconnection]
    rfl
  rw [connectionOf, hdescriptor]
  cases hfound : sources.connections.find? fun other =>
      some connection.descriptor = some other.descriptor with
  | none =>
      have hnone := List.find?_eq_none.mp hfound connection hmem
      simp at hnone
  | some other =>
      have hother := List.mem_of_find?_eq_some hfound
      have hequal : connection.descriptor = other.descriptor := by
        simpa using List.find?_some hfound
      rw [(h.sameDevice_iff hother hmem).mp (by rw [hequal, sameDevice_refl])]

theorem SourcesInvariant.chosen (h : SourcesInvariant sources) {descriptorId : Nat}
    {options : StreamOptions}
    (hstep : sources.step (.selected descriptorId options) = some next) :
    SourcesInvariant next := by
  rw [step, Option.ite_none_right_eq_some] at hstep
  obtain ⟨hlength, hnext⟩ := hstep
  obtain rfl := Option.some.inj hnext
  rw [h.aligned, List.length_map] at hlength
  have hconnection := List.getElem?_eq_getElem hlength
  obtain ⟨sent, hsent⟩ := Connect2Stream_eq sources descriptorId options
  rw [hsent]
  exact ⟨h.aligned, h.distinct,
    .inr ⟨descriptorId, _, rfl, hconnection, h.connectionOf_eq hconnection⟩⟩

/-- Where a list without duplicates has an element, that element is erased. -/
theorem erase_eq_eraseIdx_of_nodup {α : Type} [DecidableEq α] {items : List α}
    (hnodup : items.Nodup) {k : Nat} {item : α} (hitem : items[k]? = some item) :
    items.erase item = items.eraseIdx k := by
  obtain ⟨hlength, rfl⟩ := List.getElem?_eq_some_iff.mp hitem
  exact hnodup.erase_getElem k hlength

/-- A device behind the selected one disconnects. -/
theorem SourcesInvariant.kept (h : SourcesInvariant sources) {connection : Connection}
    (hstep : sources.step (.disconnected connection) = some next)
    (hkeeps : KeepsSelection sources (.disconnected connection)) : SourcesInvariant next := by
  obtain ⟨hmem, rfl⟩ := h.disconnected hstep
  refine ⟨rfl, h.distinct.sublist List.erase_sublist, ?_⟩
  rcases h.selection with hnone | ⟨i, chosen, hindex, hchosen, hselected⟩
  · exact .inl hnone
  · refine .inr ⟨i, chosen, hindex, ?_, hselected⟩
    obtain ⟨k, hk⟩ := List.getElem?_of_mem hmem
    have hbehind : i < k := by
      have := hkeeps k hk
      omega
    rw [erase_eq_eraseIdx_of_nodup h.nodup hk, List.getElem?_eraseIdx_of_lt hbehind, hchosen]

/-- Any other device disconnects: the index then leads to another connection or
to none at all. -/
theorem SourcesInvariant.broken (h : SourcesInvariant sources) {connection : Connection}
    (hstep : sources.step (.disconnected connection) = some next)
    (hkeeps : ¬ KeepsSelection sources (.disconnected connection)) : ¬ CommandsReach next := by
  obtain ⟨hmem, rfl⟩ := h.disconnected hstep
  simp only [KeepsSelection, not_forall, not_lt] at hkeeps
  obtain ⟨k, hk, hbefore⟩ := hkeeps
  rcases h.selection with ⟨hnone, -⟩ | ⟨i, chosen, hindex, hchosen, hselected⟩
  · omega
  intro hreach
  have hlength := (List.getElem?_eq_some_iff.mp hk).1
  have hshorter : (sources.connections.erase connection).length =
      sources.connections.length - 1 := List.length_erase_of_mem hmem
  -- The index has to stay valid, so there is a connection behind the selected one.
  have hvalid : i + 1 < sources.connections.length := by
    have := hreach.streamingDevice
    simp only [List.length_map, hindex, hshorter] at this
    omega
  have hmoved : (sources.connections.erase connection)[i]? = sources.connections[i + 1]? := by
    rw [erase_eq_eraseIdx_of_nodup h.nodup hk]
    exact List.getElem?_eraseIdx_of_ge (by omega)
  have hsent := hreach.sent [] (by decide)
  rw [Send_sent _ (by decide), List.append_cancel_left_eq] at hsent
  simp only [hindex, recipient_natCast, hmoved, List.getElem?_eq_getElem hvalid, hselected,
    Option.toList_some, List.map_cons, List.map_nil, Option.filter_some] at hsent
  split at hsent
  · simp only [Option.toList_some, List.map_cons, List.map_nil, List.cons.injEq,
      Prod.mk.injEq, and_true] at hsent
    have hsame : sources.connections[i + 1]? = sources.connections[i]? := by
      rw [hchosen, List.getElem?_eq_getElem hvalid, hsent]
    have := (List.getElem?_inj hvalid h.nodup).mp hsame
    omega
  · simp at hsent

theorem SourcesInvariant.step {action : SourceAction} (h : SourcesInvariant sources)
    (hstep : sources.step action = some next) (hkeeps : KeepsSelection sources action) :
    SourcesInvariant next := by
  cases action with
  | connected descriptor => exact h.connected hstep
  | disconnected connection => exact h.kept hstep hkeeps
  | selected descriptorId options => exact h.chosen hstep
  | command call =>
      obtain rfl := Option.some.inj hstep
      obtain ⟨sent, hsent⟩ := Send_eq sources sources.streamingDevice (packet call)
      rw [hsent]
      exact ⟨h.aligned, h.distinct, h.selection⟩

end Invariant

/-- The lists and the selection agree in every state of a run exactly if no
device at or before the selected one disconnects. -/
theorem commandsReach_iff (actions : List SourceAction) :
    (∀ sources ∈ Machine.visited step {} actions, CommandsReach sources) ↔
      Machine.Along step KeepsSelection {} actions := by
  refine Machine.visited_iff_along (fun _ (h : SourcesInvariant _) => h.commandsReach)
    (fun _ _ _ h hstep hkeeps => h.step hstep hkeeps) ?_ ⟨rfl, .nil, .inl ⟨rfl, rfl⟩⟩ actions
  intro sources action next h hstep hkeeps
  cases action with
  | disconnected connection => exact h.broken hstep hkeeps
  | _ => exact absurd trivial hkeeps

/-- A descriptor with nothing but an address. -/
def sampleSource (url : Bytes) : DeviceDescriptor := ⟨[], url, [], [], [], []⟩

/-- Three devices connect, the second is selected, the first disconnects, and a
command is sent. -/
def sampleEvents : List SourceAction :=
  [.connected (sampleSource [1]), .connected (sampleSource [2]), .connected (sampleSource [3]),
    .selected 1 {}, .disconnected ⟨0, sampleSource [1]⟩, .command .FlipVertically]

/-- The command goes to the third device. -/
theorem selection_shifted :
    ∃ sources ∈ Machine.visited step {} sampleEvents,
      sources.selected = some ⟨1, sampleSource [2]⟩ ∧
      sources.sent.getLast? = some (⟨2, sampleSource [3]⟩, packet .FlipVertically) ∧
      ¬ CommandsReach sources := by
  have hlength : 6 < (Machine.visited step {} sampleEvents).length := by decide +kernel
  refine ⟨_, List.getElem_mem hlength, by decide +kernel +revert, by decide +kernel +revert,
    fun hreach => ?_⟩
  have hsent := hreach.sent [] (by decide)
  clear hreach
  revert hsent
  decide +kernel +revert

end Sources

end OpenCam.Windows
