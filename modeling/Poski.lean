import Poski.Lib.TransitionSystem
import Poski.Lib.ObjectRefinement
import Poski.Lib.Linearizability
import Poski.Lib.LockInvariant
import Poski.Lib.FreeRunning
import Poski.Lib.Slice
import Poski.Lib.RecLock
import Poski.Lib.Population
import Poski.Lib.CountingSem
import Poski.Lib.SlotPool
import Poski.Lib.ScaledCounter
import Poski.Lib.RoundTrip
import Poski.Spec.BoundedFifo
import Poski.Spec.Sleep
import Poski.Osal.Types
import Poski.Spec.Semaphore
import Poski.Spec.Mutex
import Poski.Spec.TokenLimit
import Poski.Spec.MessageQueue
import Poski.Osal.OsQueue
import Poski.Osal.QueueStorage
import Poski.Osal.Blocking
import Poski.Osal.HandleMutex
import Poski.Osal.OsTask
import Poski.Osal.TimeConversion
import Poski.Ring.OsRing
import Poski.Ring.Refinement
import Poski.Ring.Overwrite
import Poski.Ring.Slots
import Poski.Posix.Native
import Poski.Posix.RingPthread
import Poski.Posix.MonitorInvariant
import Poski.Posix.RingPthreadFifo
import Poski.Posix.Wakeup
import Poski.Posix.Cancellation
import Poski.Posix.GetTimeout
import Poski.Posix.Quiescence
import Poski.Posix.Queue
import Poski.Posix.RingPthreadLinear
import Poski.Posix.PutContract
import Poski.Posix.Storage
import Poski.Posix.Time
import Poski.Posix.Clock
import Poski.Posix.Sleep
import Poski.Posix.Mutex
import Poski.Posix.Semaphore
import Poski.Posix.Task
import Poski.Posix.Deadline
import Poski.Posix.SemInterrupt
import Poski.Posix.OsMutex
import Poski.Posix.MutexLinear
import Poski.Posix.MutexCall
import Poski.Posix.OwnerUnlock
import Poski.Posix.ForeignUnlock
import Poski.Posix.OsSemaphore
import Poski.Posix.SemaphoreLinear
import Poski.Posix.LateCallback
import Poski.Posix.AppleTimer
import Poski.Posix.Timer
import Poski.Posix.OsTimer
import Poski.Posix.TimerRemaining
import Poski.Posix.TimerStart
import Poski.Zephyr.Queue
import Poski.Zephyr.Task
import Poski.Zephyr.OsTask
import Poski.Zephyr.Semaphore
import Poski.Zephyr.Mutex
import Poski.Zephyr.Time
import Poski.FreeRtos.Queue
import Poski.FreeRtos.Timer
import Poski.FreeRtos.TimerQueue
import Poski.FreeRtos.TimerIsr
import Poski.FreeRtos.Semaphore
import Poski.FreeRtos.Blocking
import Poski.FreeRtos.Mutex
import Poski.FreeRtos.Task
import Poski.FreeRtos.Time
import Poski.RtThread.Blocking
import Poski.RtThread.Mutex
import Poski.RtThread.Queue
import Poski.RtThread.Semaphore
import Poski.RtThread.Time
import Poski.Posix.QueueFifo
import Poski.Ports.QueueStorage
import Poski.Ports.Queue
import Poski.Ports.Mutex
import Poski.Ports.Semaphore
import Poski.Ports.SemaphoreLimit
import Poski.Ports.Timeout
import Poski.Ports.TimeConversion
import Poski.Ports.RoundTrip
import Poski.Programs.TestProgram
import Poski.Programs.SemTest
import Poski.Programs.QueueTest
import Poski.Programs.MutexTest
import Poski.Programs.TimerTest
