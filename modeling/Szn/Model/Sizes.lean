import Szn.Model.Language

set_option autoImplicit false

namespace Szn

def addLengths (first second : Nat) : Nat := first + min second (lengthMax - first)

def Boolean.minSize : Boolean → Nat
  | boolean => be8.byteSize
  | booleanNot underlying => underlying.minSize

def Boolean.maxSize : Boolean → Nat
  | boolean => be8.byteSize
  | booleanNot underlying => underlying.maxSize

namespace Format

def minSize : Format → Nat
  | integer format _ => format.byteSize
  | boolean format => format.minSize
  | vector _ length _ => length.byteSize
  | optional condition value => addLengths condition.minSize value.minSize
  | uniquePtr pointee => pointee.minSize
  | substitute _ _ => 0
  -- These declare no min_size. 0 is the fallback of min_size<Format, false>, but has_min_size
  -- does not compile for them, so that the fallback is never selected.
  | pair _ _ _ | array _ _ | done | field _ _ => 0

-- None where szn::max_size<Format> does not compile.
def maxSize : Format → Option Nat
  | integer format _ => some format.byteSize
  | boolean format => some format.maxSize
  | vector _ _ _ => some lengthMax
  | optional condition value => value.maxSize.map (addLengths condition.maxSize)
  | uniquePtr pointee => pointee.maxSize
  | substitute _ _ => some 0
  -- These declare no max_size. has_max_size takes sizeof(U::max_size) in a default argument, which
  -- is an error and no substitution failure, so that max_size<Format, false> is never selected.
  | pair _ _ _ | array _ _ | done | field _ _ => none

end Format

end Szn
