import Mathlib.Tactic.Common

namespace Racnet.Noise

inductive NoiseError where
  | decryptFailed
  | badMessage
  | nonceExhausted
  | outOfOrder
  | entropy
  deriving DecidableEq, Repr

end Racnet.Noise
