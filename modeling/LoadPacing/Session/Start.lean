import LoadPacing.Session.State

-- The ways to open a session. A faulty setting is reported instead.
namespace LoadPacing.Session

-- A gate by itself: no services, and a regulator that is never asked.
def gate (rate burst : Binary64) : Except Settings.Fault (Session α) :=
  match Bucket.new rate burst 0 with
  | .error fault => .error fault
  | .ok bucket => .ok ⟨0,⟨rate,rate,rate,none,bucket⟩,.of .default,[],[],0,0⟩

def withService (service : Service) (regulator : Regulator) : Session α :=
  ⟨0,regulator,service.tuning,[service],[],1,0⟩

def ofLayer (settings : Settings) : Except Settings.Fault (Session α) :=
  match Tuning.fresh settings 0 with
  | .error fault => .error fault
  | .ok (tuning,regulator) => .ok (withService ⟨.fresh 0,tuning⟩ regulator)

def ofLayerOver (shared settings : Settings) : Except Settings.Fault (Session α) :=
  match Regulator.new shared 0 with
  | .error fault => .error fault
  | .ok regulator =>
    match Tuning.over settings with
    | .error fault => .error fault
    | .ok tuning => .ok (withService ⟨.fresh 0,tuning⟩ regulator)

def ofService (settings : Settings) : Except Settings.Fault (Session α) :=
  match Service.new (.fresh 0) settings none 0 with
  | .error fault => .error fault
  | .ok (service,regulator) => .ok (withService service regulator)

def ofServiceOver (shared settings : Settings) : Except Settings.Fault (Session α) :=
  match Regulator.new shared 0 with
  | .error fault => .error fault
  | .ok regulator =>
    match Service.new (.fresh 0) settings (some regulator) 0 with
    | .error fault => .error fault
    | .ok (service,regulator) => .ok (withService service regulator)

end LoadPacing.Session
