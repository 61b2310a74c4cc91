import SharedState.Settings
import SharedState.Schema

/-! Settings from values. Unknown keys are ignored. -/
namespace SharedState.Settings

open Checked

/-- A marker name as it is compared: without white space around it, then without leading `@`. -/
def bareMarker (s : String) : String := Text.dropLeading '@' (Text.strip s)

def marker (d : Datum) : Checked String :=
  (Schema.text d).andThen fun s =>
    if (bareMarker s).isEmpty then fail (.rejected "Annotation names must not be empty") else .ok (bareMarker s)

def distinctMarkers (s : Settings) : Checked Settings :=
  if s.sharableMarker = s.unsharedMarker then
    fail (.rejected ("sharable and unshared annotations must differ (both '" ++ s.sharableMarker ++ "')"))
  else .ok s

def ofFields (fields : Schema.Fields) : Checked Settings :=
  let absent : Settings := {}
  let parts :=
    (Schema.field "check_reentrant" absent.checkReentrant Schema.bool fields).and <|
    (Schema.field "trace" absent.trace Schema.bool fields).and <|
    (Schema.field "sharable_annotation" absent.sharableMarker marker fields).and <|
    (Schema.field "unshared_annotation" absent.unsharedMarker marker fields).and <|
    (Schema.field "singleton_decorators" absent.singletonDecorators (Schema.listOf Schema.text) fields).and <|
    (Schema.field "severity" absent.severity (Schema.oneOf Severity.ofTag?) fields).and <|
    Schema.field "exclude" absent.exclude (Schema.listOf Schema.text) fields
  parts.andThen fun (checkReentrant, trace, sharableMarker, unsharedMarker, singletonDecorators, severity,
      exclude) =>
    distinctMarkers
      { checkReentrant, trace, sharableMarker, unsharedMarker, singletonDecorators, severity, exclude }

def ofDatum (d : Datum) : Checked Settings := Schema.record ofFields d

end SharedState.Settings
