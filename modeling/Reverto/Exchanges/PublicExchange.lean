import Mathlib.Tactic
import Reverto.Core.InversePerpMath

/-!
# Ticker of the public exchange adapter (exchanges/public_exchange.py)
-/

namespace Reverto

/-- `Ticker`, the prices. -/
structure Ticker where
  bid : ℚ
  ask : ℚ
  last : ℚ
  markPrice : Option ℚ
  deriving DecidableEq, Repr

/-- `info["markPrice"]` as the exchange sends it: no value, a number, or a
text together with the number it parses to. -/
inductive RawMark where
  | absent
  | number (value : ℚ)
  | text (isEmpty : Bool) (parsed : Option ℚ)
  deriving DecidableEq, Repr

/-- The unified ticker response; a missing price is `None`. -/
structure TickerResponse where
  bid : Option ℚ
  ask : Option ℚ
  last : Option ℚ
  rawMark : RawMark
  deriving DecidableEq, Repr

/-- `float(raw_mark) if raw_mark else None`, `None` when it does not parse. -/
def RawMark.toMarkPrice : RawMark → Option ℚ
  | .absent => none
  | .number v => if v = 0 then none else some v
  | .text isEmpty parsed => if isEmpty then none else parsed

/-- `get_ticker` on a response that arrived. -/
def getTicker (data : TickerResponse) : Ticker where
  bid := data.bid.getD 0
  ask := data.ask.getD 0
  last := data.last.getD 0
  markPrice := data.rawMark.toMarkPrice

/-- The price a tick works with: the mark price, else the last price. -/
def Ticker.tickPrice (t : Ticker) : ℚ :=
  match t.markPrice with
  | some mark => mark
  | none => t.last

end Reverto
