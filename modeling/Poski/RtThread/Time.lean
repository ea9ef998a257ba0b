import Poski.Osal.TimeConversion

/-!
# Times on RT-Thread

The inline functions of `os_port.h` of the RT-Thread port that convert times, and
`pos_timer_start` of `os_timer.c`. An `rt_tick_t` is a `uint32_t`, and `rate` is
`POS_TICKS_PER_SEC`, that is `RT_TICK_PER_SECOND`.
-/

namespace Poski.RtThread

/-! ## os_port.h -/

/-- `pos_time_ms_to_ticks`: `(ms * POS_TICKS_PER_SEC) / 1000`. -/
def posTimeMsToTicks (rate ms : UInt32) : UInt32 := mulDiv ms rate 1000

/-- `pos_time_ticks_to_ms`: `(ticks * 1000) / POS_TICKS_PER_SEC`. -/
def posTimeTicksToMs (rate ticks : UInt32) : UInt32 := mulDiv ticks 1000 rate

/-! ## os_timer.c -/

/-- A timer of the kernel: the ticks it runs for, and whether it is running. -/
structure RtTimer where
  initTick : UInt32
  activated : Bool
  deriving DecidableEq, Repr

/-- `pos_timer_start`: `RT_TIMER_CTRL_SET_TIME`, and `rt_timer_start`. -/
def posTimerStart (timer : RtTimer) (ticks : UInt32) : RtTimer × PosError :=
  let ticks := if ticks = 0 then 1 else ticks
  let timer := { timer with initTick := ticks }
  ({ timer with activated := true }, .ok)

/-- `pos_timer_start_ms`. -/
def posTimerStartMs (rate : UInt32) (timer : RtTimer) (duration : UInt32) : RtTimer × PosError :=
  let ticks := posTimeMsToTicks rate duration
  posTimerStart timer ticks

end Poski.RtThread
