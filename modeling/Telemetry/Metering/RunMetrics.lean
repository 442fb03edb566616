import Telemetry.Metering.Gauge
import Telemetry.Metering.Histogram

/-!
# What a run counts

Seven families are kept while a simulation is driven. They are printed in a
fixed order when the run is over.
-/
namespace Telemetry.Metering

/-- The families of a run. -/
structure RunMetrics where
  ticks : Counters := {}
  tickDuration : Histograms := {}
  channelValues : Gauges := {}
  thresholdTransitions : Counters := {}
  alertsRaised : Counters := {}
  undefinedDerivations : Counters := {}
  listenerFailures : Counters := {}

/-- The lines of all families. -/
def RunMetrics.lines (metrics : RunMetrics) : List String :=
  Counters.lines metrics.ticks "metrisim_ticks_total" ++
    Histograms.lines metrics.tickDuration "metrisim_tick_duration_micros" ++
    Gauges.lines metrics.channelValues "metrisim_channel_value" ++
    Counters.lines metrics.thresholdTransitions "metrisim_threshold_transitions_total" ++
    Counters.lines metrics.alertsRaised "metrisim_alerts_raised_total" ++
    Counters.lines metrics.undefinedDerivations "metrisim_undefined_derivations_total" ++
    Counters.lines metrics.listenerFailures "metrisim_listener_failures_total"

end Telemetry.Metering
