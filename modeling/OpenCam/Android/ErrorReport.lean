import OpenCam.Android.DeviceDescriptor

/-!
`ErrorReport.kt`: the report that the phone sends when something fails, and its
serialization.
-/

namespace OpenCam.Android

open Octets Jvm

inductive ErrorReport.Severity where
  | WARNING
  | ERROR
deriving DecidableEq, Repr

def ErrorReport.Severity.ordinal : ErrorReport.Severity → Nat
  | .WARNING => 0
  | .ERROR => 1

structure ErrorReport where
  severity : ErrorReport.Severity
  error : JString
  description : JString
deriving DecidableEq, Repr

namespace ErrorReport

def requiredSize (report : ErrorReport) : Nat :=
  1 + (2 + (toUtf8 report.error).length) + (2 + (toUtf8 report.description).length)

def putString (s : JString) (buffer : ByteBuffer) : Except Throwable ByteBuffer := do
  let buffer ← buffer.putShort (toUtf8 s).length
  buffer.put (toUtf8 s)

def serialize (report : ErrorReport) : Except Throwable Bytes := do
  let buffer := ByteBuffer.allocate report.requiredSize
  let buffer ← buffer.putByte report.severity.ordinal
  let buffer ← putString report.error buffer
  let buffer ← putString report.description buffer
  pure buffer.array

/-- A short report fills its buffer. -/
theorem serialize_eq {report : ErrorReport} (herror : (toUtf8 report.error).length < 65536)
    (hdescription : (toUtf8 report.description).length < 65536) :
    report.serialize = .ok (UInt8.ofNat report.severity.ordinal ::
      (Linux.encodeString (toUtf8 report.error) ++
        Linux.encodeString (toUtf8 report.description))) := by
  have hordinal : beBytes 1 ((report.severity.ordinal : Int) % 2 ^ 8).toNat =
      [UInt8.ofNat report.severity.ordinal] := by
    cases report.severity <;> rfl
  have hseverity := ByteBuffer.appends_putByte report.severity.ordinal
  rw [hordinal] at hseverity
  have hall := hseverity.andThen ((DeviceDescriptor.appends_putString herror).andThen
    (DeviceDescriptor.appends_putString hdescription))
  have hlength : ([UInt8.ofNat report.severity.ordinal] ++
      (Linux.encodeString (toUtf8 report.error) ++
        Linux.encodeString (toUtf8 report.description))).length = report.requiredSize := by
    simp only [List.length_append, List.length_singleton, Linux.encodeString, beBytes_length,
      requiredSize, Nat.add_assoc]
  have hfills := hall.fills
  rw [hlength] at hfills
  have hrun : report.serialize =
      ((ByteBuffer.allocate report.requiredSize).putByte report.severity.ordinal >>= fun buffer =>
        DeviceDescriptor.putString report.error buffer >>=
          DeviceDescriptor.putString report.description) >>= fun buffer => pure buffer.array := by
    simp only [serialize, bind_assoc]
    rfl
  rw [hrun, hfills]
  rfl

end ErrorReport

end OpenCam.Android
