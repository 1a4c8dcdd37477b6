import OpenCam.Windows.Settings

/-!
The settings over a session of the Windows controller: they are loaded at the
start, the registry of device states is taken from them, and both are written
back when the window is closed.
-/

namespace OpenCam.Windows

open Octets OrderedMap

namespace Settings

/-- The settings and the registry of the application. -/
structure Session where
  store : Settings
  stateRegistry : StreamOptions.Registry

/-- What happens between start and end: a menu item sets a global setting, or
the state of a device in use changes. -/
inductive Action where
  | set (name : Bytes) (value : Int)
  | change (device : Bytes × StreamOptions)

def Session.start (file : Option Bytes) : Session :=
  ⟨Load {} file, (Load {} file).GetDeviceStates⟩

def Session.perform (session : Session) : Action → Session
  | .set name value => { session with store := session.store.Set name value }
  | .change device =>
      { session with
        stateRegistry := update keyLess device.1 (fun _ => device.2) session.stateRegistry }

/-- The session up to the closing of the window. -/
def Session.run (file : Option Bytes) (actions : List Action) : Session :=
  actions.foldl perform (start file)

/-- The program sets its own settings, and changes states under names and to
values that it got from a descriptor. -/
def Action.Admitted : Action → Prop
  | .set name value => name ∈ settingNames ∧ IsInt value
  | .change device => AdmittedDevice device

section Preserving

variable {original copy : Loading} {line : Bytes}

end Preserving

section Sessions

variable {file : Option Bytes} {actions : List Action} {name : Bytes}

end Sessions

end Settings

end OpenCam.Windows
