import StarBase.Host

/-!
# Headers

What the readers hand on of a FITS or XISF file: its HDUs with their cards, the keyword lookup, the
HDUs that become frames, and the identity fingerprint.  Pixel data is never read.
-/

namespace StarBase

structure Card where
  keyword : Str
  value : Str
  comment : Str
  deriving DecidableEq, Repr

structure Hdu where
  index : ℕ
  isImage : Bool
  bitpix : Int
  naxis : Int
  naxis1 : Int
  naxis2 : Int
  cards : List Card
  deriving DecidableEq, Repr

/-- First value for a keyword, compared case-insensitively. -/
def Hdu.get (h : Hdu) (keyword : Str) : Option Str :=
  (h.cards.find? fun c => upper c.keyword = upper keyword).map Card.value

def Hdu.has (h : Hdu) (keyword : Str) : Bool := (h.get keyword).isSome

/-- The HDUs of a file.  The readers number them in order, so no two share an index. -/
structure RawHeader where
  hdus : List Hdu
  index_nodup : (hdus.map Hdu.index).Nodup
  deriving DecidableEq

/-- The HDUs that carry an image; these become frames. -/
def RawHeader.imageHdus (r : RawHeader) : List Hdu :=
  r.hdus.filter fun h => h.isImage && decide (0 < h.naxis)

/-- The cards that cannot change for a given exposure. -/
def fingerprintFields : List Str :=
  ["DATE-OBS".toList, "INSTRUME".toList, "EXPTIME".toList, "NAXIS1".toList, "NAXIS2".toList,
    "IMAGETYP".toList, "XBINNING".toList]

/-- The text the fingerprint digests: each field's value, or nothing, and a bar. -/
def fingerprintMaterial (h : Hdu) : Str :=
  fingerprintFields.flatMap fun f => (h.get f).getD [] ++ ['|']

def fingerprint [Host] (h : Hdu) : Str := Host.md5 (fingerprintMaterial h)

end StarBase
