import LightControlMonitor.Hmi.Readings

/-!
# The measurement in the station

Calls of `cal_rms` alone are a run of the station too, and so the display shows the load that the measurement has published last.
-/

namespace LightControlMonitor.Adc

open Transition (System Reaches)
open Hmi (Station StationAction stationSystem)

def Call.action (call : Call) : StationAction SysPara := .calRms call.cur call.para

/-- Every run of the measurement is one of the station. -/
theorem station_of_measurement {conv : ℚ → UInt16} {calls : List Call} {readings : List (Reading ℚ)} {s : Measurement ℚ}
    (hreach : Reaches (measurementSystem conv) calls readings s) :
    ∃ t, Reaches (stationSystem (rationals conv)) (calls.map Call.action) [] t ∧ t.measurement = s := by
  refine hreach.invariant (fun calls _ s =>
    ∃ t, Reaches (stationSystem (rationals conv)) (calls.map Call.action) [] t ∧ t.measurement = s) ?_ ?_
  · rintro s rfl
    exact ⟨.start (rationals conv), ⟨_, Station.start_initial (rationals conv), .nil⟩, rfl⟩
  · rintro calls readings _ call out s' ⟨t, ⟨t₀, hinit, hrun⟩, rfl⟩ - hstep
    obtain ⟨⟨next, r⟩, hcall, heq⟩ := Option.map_eq_some_iff.mp hstep
    obtain ⟨rfl, -⟩ := Prod.mk.inj heq
    have hnext : (stationSystem (rationals conv)).step t call.action = some ({ t with measurement := next }, []) := by
      change (calRms _ t.measurement call.cur call.para).map _ = _
      rw [hcall]
      rfl
    refine ⟨{ t with measurement := next }, ⟨t₀, hinit, ?_⟩, rfl⟩
    rw [List.map_append]
    exact hrun.snoc trivial hnext

/-- The display shows amperes and volts of the last publication. -/
theorem display_of_measurement {conv : ℚ → UInt16} {calls : List Call} {readings : List (Reading ℚ)} {s : Measurement ℚ}
    (hreach : Reaches (measurementSystem conv) calls readings s) :
    ∃ t, Reaches (stationSystem (rationals conv)) (calls.map Call.action) [] t ∧
      (Hmi.viDisp t.info).current = Hmi.amperes
        ((readings.filterMap (·.published)).getLastD (Measurement.start (rationals conv)).load).localILoad ∧
      (Hmi.viDisp t.info).voltage = Hmi.volts
        ((readings.filterMap (·.published)).getLastD (Measurement.start (rationals conv)).load).localVLoad := by
  obtain ⟨t, hrun, rfl⟩ := station_of_measurement hreach
  rw [← (measured hreach).load]
  exact ⟨t, hrun, rfl, rfl⟩

end LightControlMonitor.Adc
