import TableAlgebra.CommandLine

namespace TableAlgebra

def usageText : String := "usage: [-v] demo|list|explain|dump [options]"

def readVariables (names : List String) : IO (List (String × String)) := do
  let found ← names.mapM fun name => do
    return (← IO.getEnv name).map (name, ·)
  return found.filterMap id

end TableAlgebra

open TableAlgebra in
def main (arguments : List String) : IO UInt32 := do
  let given ← readVariables [Settings.paddingVariable, Settings.nullsVariable]
  let outcome := CommandLine.run arguments fun name => given.lookup name
  IO.print outcome.output
  if outcome.exitCode = 2 then IO.eprintln usageText
  if let some message := outcome.failure then IO.eprintln message
  return UInt32.ofNat outcome.exitCode
