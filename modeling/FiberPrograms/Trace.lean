import FiberPrograms.ForkJoin
import FiberPrograms.Json.Basic

/-!
# Events in writing

An event is written as a JSON object that starts with its tag. In a trace, the time at which the
event was put down comes before that.

## Main definitions

* `Event.fields`, `Event.shape`: an event as JSON members, and shown for diagnosis
* `trace`: a list of events with their times
* `Json.variant?`, `Place.ofJson?`: reading the name of a place
-/

namespace FiberPrograms

/-- The JSON members of an event, its tag first. -/
def Event.fields (name : FiberId → String) : Event → List (String × Json)
  | .fork fiber place =>
    [("t", .str "Fork"), ("fiber", .str (name fiber)), ("location", .str place.name)]
  | .await fiber => [("t", .str "Await"), ("fiber", .str (name fiber))]
  | .finished outermost => [("t", .str "Finished"), ("outermost", .bool outermost)]

/-- How an event is shown for diagnosis. -/
def Event.shape : Event → Shape
  | .fork fiber place =>
    .record "Fork" (.field "fiber" (.fiber "FiberId" fiber) (.field "location" place.shape .closed))
  | .await fiber => .record "Await" (.field "fiber" (.fiber "FiberId" fiber) .closed)
  | .finished outermost =>
    .record "Finished" (.field "outermost" (.word (toString outermost)) .closed)

/-- A list of events with their times. -/
def trace (name : FiberId → String) (events : List (String × Event)) : Json :=
  .arr (events.map fun (time, event) => .obj (("at", .str time) :: event.fields name))

/-- The name of a variant without content: a string, or an object with that name as its only key
and nothing under it. -/
def Json.variant? : Json → Option String
  | .str name => some name
  | .obj [(name, .null)] => some name
  | _ => none

/-- The place that a document names. -/
def Place.ofJson? (document : Json) : Option Place :=
  document.variant?.bind ofName?

end FiberPrograms
