import Mathlib.Algebra.Order.Ring.Rat
import ObjectProcessor.Library.Json

/-!
# Metrics

A counter or a gauge is emitted with the dimensions the budget allows; any other key is
dropped, and only the key is logged.
-/

namespace ObjectProcessor

structure Metric where
  name : String
  value : Rat
  dimensions : List (String × String)
  deriving DecidableEq, Repr

/-- `ALLOWED_METRIC_DIMENSION_KEYS` -/
def allowedMetricDimensionKeys : List String := ["reason", "route", "outcome"]

/-- `sanitiseDimensions`: the dimensions kept, and the keys it warns of. -/
def sanitiseDimensions (dimensions : List (String × String)) :
    List (String × String) × List String :=
  (dimensions.filter fun dimension => decide (dimension.1 ∈ allowedMetricDimensionKeys),
    (dimensions.map Prod.fst).filter fun key => decide (key ∉ allowedMetricDimensionKeys))

/-- `metricsCounter` and `metricsGauge`, which differ in the call they make only. -/
def emitMetric (isMetricsEnabled : Bool) (name : String) (value : Rat)
    (dimensions : List (String × String)) : List Metric :=
  if isMetricsEnabled then [{ name, value, dimensions := (sanitiseDimensions dimensions).1 }]
  else []

/-- The outcome of a poll and of a failed publication, as a dimension. -/
def outcomeDimension (outcome : String) : List (String × String) := [("outcome", outcome)]

@[simp]
theorem sanitiseDimensions_outcome (outcome : String) :
    sanitiseDimensions (outcomeDimension outcome) = (outcomeDimension outcome, []) := by
  simp [sanitiseDimensions, outcomeDimension, allowedMetricDimensionKeys]

/-- The values of the named metric with the given outcome, summed. -/
def metricTotal (name outcome : String) (emitted : List Metric) : Rat :=
  ((emitted.filter fun metric =>
    decide (metric.name = name ∧ metric.dimensions = outcomeDimension outcome)).map
      Metric.value).sum

@[simp]
theorem metricTotal_nil (name outcome : String) : metricTotal name outcome [] = 0 := rfl

theorem metricTotal_append (name outcome : String) (front rest : List Metric) :
    metricTotal name outcome (front ++ rest) =
      metricTotal name outcome front + metricTotal name outcome rest := by
  simp [metricTotal]

end ObjectProcessor
