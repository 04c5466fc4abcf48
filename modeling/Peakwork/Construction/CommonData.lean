/-
This file gives the data that a fetch brings.
-/

import Mathlib.Tactic

namespace Peakwork.CommonData

/-- The price is given by the bits of its single. -/
structure Price where
  price : BitVec 32
  dateTimestamp : Int
  dateString : String
  deriving DecidableEq, Repr

structure CompanyInfo where
  shortName : String
  fullName : String
  logo : String
  priceList : List Price
  deriving DecidableEq, Repr

/-- The value `{}`. -/
def CompanyInfo.empty : CompanyInfo := ⟨"", "", "", []⟩

end Peakwork.CommonData
