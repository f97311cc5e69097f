/-
Reconcile.Bytes — content as bytes, compared byte by byte.
-/

namespace Reconcile

/-- Whether two contents are equal is decided byte by byte. -/
instance instDecidableEqBytes : DecidableEq ByteArray := ByteArray.decEq

end Reconcile
