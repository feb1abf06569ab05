/-
The sizes of fixed tables and register files are not zero.

A literal index into a table of one of these sizes is found by these instances.
-/
import Mathlib.Algebra.GroupWithZero.Nat

namespace VitaSX2.FixedSize

instance (priority := 2000) neZero3 : NeZero 3 := ⟨by decide⟩

instance (priority := 2000) neZero4 : NeZero 4 := ⟨by decide⟩

instance (priority := 2000) neZero6 : NeZero 6 := ⟨by decide⟩

instance (priority := 2000) neZero16 : NeZero 16 := ⟨by decide⟩

instance (priority := 2000) neZero32 : NeZero 32 := ⟨by decide⟩

instance (priority := 2000) neZero1024 : NeZero 1024 := ⟨by decide⟩

instance (priority := 2000) neZero16384 : NeZero 16384 := ⟨by decide⟩

end VitaSX2.FixedSize
