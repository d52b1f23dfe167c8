/-! `TrafficHistory`: the points of the last minutes, of which one for each minute goes into a list of the last hours,
    and one for each hour into a list without an end. The clock counts the milliseconds since 1970. -/

namespace NicVpn

/-- A point is one object, also where two lists have it. -/
structure TrafficDatapoint where
  inBytes : BitVec 64
  outBytes : BitVec 64
  timestamp : Nat
  deriving DecidableEq, Repr

structure LastDiff where
  lasttdp : TrafficDatapoint
  tdp : TrafficDatapoint
  deriving DecidableEq, Repr

namespace LastDiff

/-- `max(0, n)` of a `long`. -/
def max0 (n : BitVec 64) : BitVec 64 := if n.toInt < 0 then 0 else n

def getDiffOut (d : LastDiff) : BitVec 64 := max0 (d.tdp.outBytes - d.lasttdp.outBytes)

def getDiffIn (d : LastDiff) : BitVec 64 := max0 (d.tdp.inBytes - d.lasttdp.inBytes)

def getIn (d : LastDiff) : BitVec 64 := d.tdp.inBytes

def getOut (d : LastDiff) : BitVec 64 := d.tdp.outBytes

end LastDiff

/-- What `updateByteCount` tells a `ByteCountListener`. -/
structure ByteCount where
  inBytes : BitVec 64
  outBytes : BitVec 64
  diffIn : BitVec 64
  diffOut : BitVec 64
  deriving DecidableEq, Repr

def LastDiff.byteCount (d : LastDiff) : ByteCount where
  inBytes := d.getIn
  outBytes := d.getOut
  diffIn := d.getDiffIn
  diffOut := d.getDiffOut

structure TrafficHistory where
  trafficHistorySeconds : List TrafficDatapoint := []
  trafficHistoryMinutes : List TrafficDatapoint := []
  trafficHistoryHours : List TrafficDatapoint := []
  lastSecondUsedForMinute : Option TrafficDatapoint := none
  lastMinuteUsedForHours : Option TrafficDatapoint := none
  deriving DecidableEq, Repr

namespace TrafficHistory

def periodsToKeep : Nat := 5

def timePeriodMinutes : Nat := 60 * 1000

def timePeriodHours : Nat := 3600 * 1000

def zero : TrafficDatapoint := ⟨0, 0, 0⟩

def getLastDiff (h : TrafficHistory) (tdp : Option TrafficDatapoint) (now : Nat) : LastDiff :=
  let lasttdp := h.trafficHistorySeconds.getLast?.getD { zero with timestamp := now }
  match tdp with
  | some tdp => { lasttdp, tdp }
  | none =>
    if h.trafficHistorySeconds.length < 2 then { lasttdp, tdp := lasttdp }
    -- each of the two iterators is a new one, so the second gives the last point too
    else { lasttdp, tdp := h.trafficHistorySeconds.getLast?.getD lasttdp }

/-- A new point is the first of its period. -/
def newPeriod (timePeriod : Nat) (newTdp : TrafficDatapoint) (lastTsPeriod : Option TrafficDatapoint) : Bool :=
  lastTsPeriod.any fun last => last.timestamp / timePeriod < newTdp.timestamp / timePeriod

/-- `tpList` without the points of `toRemove`. -/
def removeOld (timePeriod : Nat) (newTdp : TrafficDatapoint) (tpList : List TrafficDatapoint) : List TrafficDatapoint :=
  tpList.filter fun tph => (newTdp.timestamp - tph.timestamp) / timePeriod < periodsToKeep

/-- `removeAndAverage` for the minutes, `seconds` being false. -/
def removeAndAverageMinutes (h : TrafficHistory) (newTdp : TrafficDatapoint) : TrafficHistory :=
  if newPeriod timePeriodHours newTdp h.lastMinuteUsedForHours then
    { h with
      trafficHistoryHours := h.trafficHistoryHours ++ [newTdp]
      lastMinuteUsedForHours := some newTdp
      trafficHistoryMinutes := removeOld timePeriodHours newTdp h.trafficHistoryMinutes }
  else h

/-- `removeAndAverage` for the seconds. -/
def removeAndAverage (h : TrafficHistory) (newTdp : TrafficDatapoint) : TrafficHistory :=
  if newPeriod timePeriodMinutes newTdp h.lastSecondUsedForMinute then
    let h := { h with
      trafficHistoryMinutes := h.trafficHistoryMinutes ++ [newTdp]
      lastSecondUsedForMinute := some newTdp }
    let h := removeAndAverageMinutes h newTdp
    { h with trafficHistorySeconds := removeOld timePeriodMinutes newTdp h.trafficHistorySeconds }
  else h

def addDataPoint (h : TrafficHistory) (tdp : TrafficDatapoint) : TrafficHistory :=
  let h := { h with trafficHistorySeconds := h.trafficHistorySeconds ++ [tdp] }
  let h := if h.lastSecondUsedForMinute = none then
      { h with lastSecondUsedForMinute := some zero, lastMinuteUsedForHours := some zero }
    else h
  removeAndAverage h tdp

/-- `add` at a time of the clock, which `getLastDiff` reads once more. -/
def add (h : TrafficHistory) (inBytes outBytes : BitVec 64) (now : Nat) : TrafficHistory × LastDiff :=
  let tdp : TrafficDatapoint := { inBytes, outBytes, timestamp := now }
  let diff := getLastDiff h (some tdp) now
  (addDataPoint h tdp, diff)

/-- `VpnStatus.addByteCountListener`: what a new listener is told at a time of the clock. -/
def addByteCountListener (h : TrafficHistory) (now : Nat) : ByteCount := (getLastDiff h none now).byteCount

/-- The arguments of a call of `add`, and the time of the call. -/
abbrev Call := TrafficDatapoint

/-- The history after some calls, and the differences they have returned. -/
def addAll (calls : List Call) : TrafficHistory × List LastDiff :=
  calls.foldl (fun s call =>
    let (h, diff) := add s.1 call.inBytes call.outBytes call.timestamp
    (h, s.2 ++ [diff])) ({}, [])

end TrafficHistory
end NicVpn
