import OpenCam.Jvm.Text

/-!
Numbers in strings as Kotlin reads them. A digit is what `Character.digit` takes for one.
-/

namespace Jvm

/-- The sign in front of a number, if there is one, and what follows it. -/
def splitSign : JString → Bool × JString
  | unit :: rest =>
      if unit = 0x2d then (true, rest)
      else if unit = 0x2b then (false, rest)
      else (false, unit :: rest)
  | [] => (false, [])

/-- `toIntOrNull()`. -/
def toIntOrNull (text : JString) : Option Int :=
  let (negative, digits) := splitSign text
  if digits.isEmpty || digits.any fun unit => digit unit 10 < 0 then none
  else
    let value := digits.foldl (fun value unit => 10 * value + digit unit 10) 0
    let signed := if negative then -value else value
    if -2 ^ 31 ≤ signed ∧ signed < 2 ^ 31 then some signed else none

end Jvm
