import Pipelined.ForStd.List
import Pipelined.Native.Types
import Pipelined.Native.Work
import Pipelined.Native.Servicer
import Pipelined.Native.Rpc
import Pipelined.Native.EventLoop
import Pipelined.Spec.Run
import Pipelined.Spec.ActivateFlows
import Pipelined.Spec.Filtering
import Pipelined.Spec.StatsFirst
import Pipelined.Spec.Outcome
import Pipelined.Spec.Reports
import Pipelined.Spec.Restart
import Pipelined.Spec.DeactivateFlows
import Pipelined.Spec.Versions
import Pipelined.Spec.Loop
import Pipelined.Spec.Interleaving
import Pipelined.Spec.Appends
import Pipelined.Spec.EpochOrder
import Pipelined.Spec.Gating
import Pipelined.Spec.Progress
import Pipelined.Spec.Fencing
import Pipelined.Spec.Answers
import Pipelined.Native.PayloadLog
import Pipelined.Spec.PayloadLog
import Pipelined.Spec.CallOrder
import Pipelined.Spec.CallNeeds
import Pipelined.Spec.GuardAgreement
import Pipelined.Spec.AnswerTiming
import Pipelined.Spec.UnitOrder
