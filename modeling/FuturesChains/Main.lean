import FuturesChains.Backtest

/-!
# The program

The program takes the variables of the configuration from its environment, runs the backtest that
they describe, and leaves the outcome behind: the log on standard output, a report of what went
wrong on standard error, and the exit code.
-/

namespace FuturesChains

/-- The variables of the configuration and of the log that are set for this process. -/
def readEnvironment : IO Environment := do
  let names := Variable.all.map Variable.name ++ [logVariable]
  let texts ← names.mapM fun name => return (name, ← IO.getEnv name)
  return fun name => (texts.lookup name).join

/-- Write an outcome out and give its exit code. -/
def Outcome.leave (o : Outcome) : IO UInt32 := do
  for line in o.lines do
    IO.println line
  IO.eprint o.errors
  return o.exit

end FuturesChains

/-- Run the backtest of the environment. -/
def main : IO UInt32 := do
  (FuturesChains.runBacktest (← FuturesChains.readEnvironment)).leave
