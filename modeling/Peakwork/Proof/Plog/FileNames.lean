/-
This file proves that the log files of one path have different names.
-/

import Peakwork.Construction.Plog.RollingFileAppender

namespace Peakwork.Plog

theorem decimal_injective : Function.Injective decimal := by
  intro first second same
  have values : Nat.ofDigitChars 10 (decimal first) 0 = Nat.ofDigitChars 10 (decimal second) 0 := by
    rw [same]
  rwa [decimal, decimal, Nat.ofDigitChars_ten_toDigits, Nat.ofDigitChars_ten_toDigits] at values

namespace RollingFileAppender

variable (log : RollingFileAppender)

theorem buildFileName_injective : Function.Injective log.buildFileName := by
  intro first second same
  have middle := List.append_cancel_left (List.append_cancel_right same)
  rcases Nat.eq_zero_or_pos first with rfl | positive
  · by_contra apart
    rw [if_neg (lt_irrefl 0), if_pos (by omega)] at middle
    exact List.cons_ne_nil _ _ middle.symm
  · by_cases other : second > 0
    · rw [if_pos positive, if_pos other] at middle
      exact decimal_injective (List.cons.inj middle).2
    · rw [if_pos positive, if_neg other] at middle
      exact absurd middle (List.cons_ne_nil _ _)

end RollingFileAppender

end Peakwork.Plog
