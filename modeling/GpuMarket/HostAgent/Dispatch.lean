import GpuMarket.ControlPlane.Server

namespace GpuMarket

structure RentalSpec where
  rentalId : Int
  image : String
  sshPubkey : String
  deriving DecidableEq, Repr

structure Started where
  containerId : String
  sshPort : Int
  kind : RentalKind
  deriving DecidableEq, Repr

/-- The report of `dispatch` on the outcome of `start_rental`; errors are their texts. -/
def startReport (rentalId : Int) : Except String Started → ReportRequest
  | .ok started =>
    { rentalId
      status := .running
      kind := some started.kind
      sshPort := some started.sshPort
      containerId := some started.containerId }
  | .error e => { rentalId, status := .failed, error := some e }

/-- The report of `dispatch` on the outcome of `stop_rental`. -/
def stopReport (rentalId : Int) : Except String Unit → ReportRequest
  | .ok () => { rentalId, status := .stopped }
  | .error e => { rentalId, status := .failed, error := some e }

/-- A report that some `dispatch` task sends. -/
inductive Dispatched : ReportRequest → Prop
  | start (rentalId : Int) (outcome : Except String Started) :
    Dispatched (startReport rentalId outcome)
  | stop (rentalId : Int) (outcome : Except String Unit) : Dispatched (stopReport rentalId outcome)

/-- The requests of agents that send only what `dispatch` builds. -/
def ServerAct.Dispatched : ServerAct → Prop
  | .request (.report _ req) => GpuMarket.Dispatched req
  | _ => True

end GpuMarket
