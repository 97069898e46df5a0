import Mathlib.Data.List.MinMax

namespace Racnet.Policy.DuplicateLinkPolicy

/-- An established link to the remote, as this side sees it. -/
structure Link where
  linkId : UInt64
  weInitiated : Bool
  deriving DecidableEq, Repr

/-- The first byte that differs decides, and then the length. -/
def compareFingerprints : List UInt8 → List UInt8 → Ordering
  | a :: as, b :: bs =>
    match compare a.toNat b.toNat with
    | .eq => compareFingerprints as bs
    | cmp => cmp
  | as, bs => compare as.length bs.length

/-- The link to keep: the lowest id among the links of the chosen initiator, or among all. -/
def keeper (keeperInitiatedByUs : Bool) (links : List Link) : Option Link :=
  ((links.filter fun link => link.weInitiated == keeperInitiatedByUs).argmin (·.linkId.toNat)).or
    (links.argmin (·.linkId.toNat))

/-- The ids of the links to close, given every established link to one remote. -/
def victims (localFingerprint remoteFingerprint : List UInt8) (links : List Link) : List UInt64 :=
  if links.length < 2 then []
  else
    match compareFingerprints localFingerprint remoteFingerprint with
    | .eq => links.map (·.linkId)
    | cmp =>
      let keeper := keeper (cmp == .lt) links
      (links.map (·.linkId)).filter fun linkId => some linkId != keeper.map (·.linkId)

end Racnet.Policy.DuplicateLinkPolicy
