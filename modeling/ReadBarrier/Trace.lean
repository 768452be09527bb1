import ReadBarrier.World

/-!
The lines that the library's own events make in a log.
-/

namespace ReadBarrier

/-- The line of an occurrence on a counting signal. Wakers write their own lines. -/
def Occurrence.line? {ω : Type} : Occurrence ω → Option String
  | .begun _ pending => s!"TRACE cache signal read begun pending={pending}"
  | .ended _ pending => s!"TRACE cache signal read ended pending={pending}"
  | .unpaired _ =>
    "ERROR cache signal pairing violated error=end_read without matching begin_read"
  | .woken .. => none

/-- The line of an event. Foreign code writes its own lines. -/
def Event.line? {H : Host} : Event H → Option String
  | .cache occurrence => occurrence.line?
  | .leaseBegun _ => "TRACE dynamic import read begun"
  | .leaseEnded _ => "TRACE dynamic import read ended"
  | .callEntered name => s!"span-enter tracked_call name={name}"
  | .callExited name => s!"span-exit tracked_call name={name}"
  | .passDisabled => "DEBUG loader instrumentation disabled"
  | .wrapped global name => s!"DEBUG instrumenting loader global={global} name={name}"
  | .note _ => none

end ReadBarrier
