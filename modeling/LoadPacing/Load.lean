import LoadPacing.Binary64.Arithmetic

-- Load readings of the backend's locations, and the proportional law over the busiest one.
namespace LoadPacing

structure Reading where
  location : String
  percent : Binary64
  deriving DecidableEq

abbrev Report := Option (List Reading)

def Report.readings (report : Report) : List Reading := report.getD []

namespace Load

-- What a missed deadline is read as.
def overload : Binary64 := Binary64.ofDecimal false 999 (-1)

def usable (reading : Reading) : Option Binary64 :=
  if reading.percent.Positive then some (min reading.percent 100) else none

def sample (readings : List Reading) : List Binary64 := readings.filterMap usable

def dropped (readings : List Reading) : List Reading :=
  readings.filter fun reading => ¬ reading.percent.Positive

def busiest (samples : List Binary64) : Option Binary64 :=
  match samples.filter fun percent => percent.Positive with
  | [] => none
  | first :: rest => some (rest.foldl max first)

def leading (best : Option Binary64) (percent : Binary64) : Option Binary64 :=
  if percent.Positive then
    match best with
    | none => some percent
    | some top => some (max top percent)
  else best

-- In one pass. Without a usable reading the rate stays; no bounds hold the result.
def nextRate (samples : List Binary64) (target rate : Binary64) : Binary64 :=
  match samples.foldl leading none with
  | none => rate
  | some observed => rate * (target / observed)

end Load
end LoadPacing
