import RayonExecutor.Tracked
import RayonExecutor.Admission
import RayonExecutor.Cancellation
import RayonExecutor.Progress
import RayonExecutor.Waiters
import RayonExecutor.Capacity
import RayonExecutor.Publication
import RayonExecutor.Termination
import RayonExecutor.Order
import RayonExecutor.Waiting
import RayonExecutor.Identifiers
import RayonExecutor.Lib.Mutex
import RayonExecutor.Code
import RayonExecutor.Jobs
import RayonExecutor.Endpoints
import RayonExecutor.Answers
import RayonExecutor.Visible
import RayonExecutor.Unwinding
import RayonExecutor.Machine
import RayonExecutor.Wakers
import RayonExecutor.Stop
import RayonExecutor.Sections
import RayonExecutor.Panics
import RayonExecutor.Lib.Stacks
import RayonExecutor.Reentrancy
import RayonExecutor.Completion
import RayonExecutor.Delivery
import RayonExecutor.Successive
import RayonExecutor.Hazards
import RayonExecutor.Abstraction
import RayonExecutor.Lifetimes
import RayonExecutor.Released
import RayonExecutor.Producers
import RayonExecutor.Builder
import RayonExecutor.EndToEnd
import RayonExecutor.Silent
