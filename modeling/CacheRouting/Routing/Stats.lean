import CacheRouting.Dictionary

/-!
# What hosts account for

A scheduler reports a row of numbers for each host, under the host's address.
The rows of hosts that share an address are one row, that of the last of them.
-/

namespace CacheRouting

abbrev Stats (Share : Type) := Dictionary (List Share)

namespace Stats

variable {Share : Type}

/-- The row of `width` columns that is zero but in one column. -/
def unitRow (zero share : Share) (width column : Nat) : List Share :=
  (List.replicate width zero).set column share

def mapShares {Other : Type} (convert : Share → Other) (stats : Stats Share) : Stats Other where
  entries := stats.entries.map fun entry => (entry.1, entry.2.map convert)
  ascending := by
    rw [List.pairwise_map]
    exact stats.ascending

/-- The double nearest to a share whose parts doubles hold exactly. -/
def shareToFloat (share : Rat) : Float :=
  Float.ofInt share.num / Float.ofNat share.den

end Stats

end CacheRouting
