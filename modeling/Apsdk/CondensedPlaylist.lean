import Apsdk.Library.RegexSyntax
import Apsdk.MediaDataStore

/-! The expansion of condensed playlists: their header names a base and a prefix, and
every line that begins with the prefix belongs behind the base. -/

namespace Apsdk.MediaDataStore
open Library

def YOUTUBE_PATTERN : Bytes := ascii "#YT-EXT-CONDENSED-URL:BASE-URI=\"(.*)\",PARAMS=.*PREFIX=\"(.*)\""

/-- What is extracted from a document; both are empty where there is no header. -/
structure Condensed where
  base : Bytes
  linePrefix : Bytes
deriving DecidableEq, Repr

namespace Condensed
variable (found : Condensed)

def Given : Prop := found.base ≠ [] ∧ found.linePrefix ≠ []

instance : Decidable found.Given := inferInstanceAs (Decidable (_ ∧ _))

/-- The pattern of the expression, and the format of what it is replaced by. -/
def pattern : Bytes := 10 :: found.linePrefix

def format : Bytes := 10 :: (found.base ++ 47 :: found.linePrefix)

end Condensed

/-- The search ends at the first zero (`c_str`). -/
def condensed (data : Bytes) : Condensed :=
  let text := data.takeWhile (· ≠ 0)
  match (Regex.parse YOUTUBE_PATTERN).bind fun regex => regex.search text with
  | some groups => ⟨groups.str text 1, groups.str text 2⟩
  | none => ⟨[], []⟩

/-- `adjust_secondary_media_data`; none where the constructor of the expression throws. -/
def adjustSecondaryMediaData (data : Bytes) : Option Bytes :=
  let found := condensed data
  if found.Given then (Regex.parse found.pattern).map fun regex => regex.replace found.format data
  else some data

/-- What the store leaves to `hlsparse_master` alone. -/
def rewriting (hlsparseMaster : Bytes → Option MasterPlaylist) : Rewriting := ⟨hlsparseMaster, adjustSecondaryMediaData⟩

end Apsdk.MediaDataStore
