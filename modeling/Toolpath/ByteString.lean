/-! # Strings of bytes

Two strings of bytes are compared byte by byte.
-/

namespace Toolpath

instance byteStringDecidableEq : DecidableEq ByteArray := fun a b =>
  match decEq a.data b.data with
  | .isTrue same => .isTrue (ByteArray.ext same)
  | .isFalse differ => .isFalse fun same => differ (same ▸ rfl)

end Toolpath
