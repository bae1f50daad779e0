import Mathlib.Data.List.Basic
import Mathlib.Data.Int.Notation

/-!
# The font of the display

A glyph is a rectangle of bits and where it stands at the cursor. The program
writes all its texts in one font, which has a glyph for each printable letter
of ASCII and for six letters beyond it; the glyphs of the others are empty.
-/

set_option autoImplicit false

namespace THue.Fonts

structure Glyph where
  bitmapOffset : ℕ
  width : ℕ
  height : ℕ
  xAdvance : ℕ
  xOffset : ℤ
  yOffset : ℤ
  bytes : width < 256 ∧ height < 256 ∧ xAdvance < 256
  offsets : (-128 ≤ xOffset ∧ xOffset < 128) ∧ -128 ≤ yOffset ∧ yOffset < 128

structure Font where
  bitmap : ℕ → UInt8
  glyph : ℕ → Glyph
  first : UInt8
  last : UInt8
  yAdvance : ℕ
  byte : yAdvance < 256

def IBMPlexMono_M6pt7bBitmaps : List UInt8 :=
  [0x00, 0x49, 0x24, 0x17, 0xB6, 0xD0, 0x34, 0x4B, 0xB9, 0x42, 0x9D, 0xD2, 0x2C, 0x10, 0x79, 0x5A,
   0x87, 0x03, 0x85, 0xAA, 0xFC, 0x20, 0x63, 0x2A, 0x63, 0x00, 0xC6, 0x54, 0xC6, 0x38, 0x91, 0x01,
   0x37, 0x53, 0xB3, 0x3B, 0xF0, 0x36, 0x4C, 0x88, 0x8C, 0x46, 0x30, 0xC6, 0x23, 0x11, 0x13, 0x26,
   0xC0, 0x10, 0x23, 0xF8, 0x82, 0x88, 0x80, 0x21, 0x3E, 0x42, 0x00, 0x6B, 0x40, 0xE0, 0x5C, 0x08,
   0xC4, 0x22, 0x10, 0x88, 0x46, 0x20, 0x38, 0x89, 0x12, 0x24, 0x48, 0x91, 0x1C, 0x30, 0xA0, 0x40,
   0x81, 0x02, 0x04, 0x3E, 0x74, 0x42, 0x33, 0x33, 0x1F, 0x79, 0x10, 0x4E, 0x04, 0x14, 0x5E, 0x18,
   0x30, 0xA2, 0x44, 0x9F, 0x82, 0x04, 0xFC, 0x21, 0x7C, 0x86, 0x2E, 0x31, 0x0C, 0x3E, 0x8A, 0x28,
   0x9C, 0xFC, 0x46, 0x23, 0x10, 0x8C, 0x7C, 0x89, 0x11, 0xC4, 0x48, 0x91, 0x1C, 0x39, 0x14, 0x51,
   0x7C, 0x30, 0x8C, 0x5C, 0x05, 0xC0, 0x5C, 0x06, 0xB4, 0x09, 0xD9, 0x06, 0x1C, 0x20, 0xF8, 0x3E,
   0x87, 0x0C, 0x13, 0x72, 0x00, 0x74, 0x42, 0x62, 0x01, 0x8C, 0x74, 0x6F, 0x5A, 0xD6, 0xF0, 0x70,
   0x38, 0x50, 0xA1, 0x46, 0xCF, 0x91, 0x63, 0xFC, 0x63, 0xE8, 0xC6, 0x3F, 0x7E, 0x61, 0x08, 0x43,
   0x2F, 0xF2, 0x28, 0xA3, 0x8E, 0x28, 0xBC, 0xFC, 0x21, 0xF8, 0x42, 0x1F, 0xFC, 0x21, 0xF8, 0x42,
   0x10, 0x39, 0x14, 0x30, 0xDD, 0x14, 0x4F, 0x8C, 0x63, 0xF8, 0xC6, 0x31, 0xF9, 0x08, 0x42, 0x10,
   0x9F, 0x78, 0x42, 0x10, 0x86, 0x3F, 0x8E, 0x6B, 0x28, 0xF2, 0x49, 0xA3, 0x84, 0x21, 0x08, 0x42,
   0x1F, 0x8E, 0xF7, 0xFA, 0xD6, 0x31, 0xCE, 0x7B, 0x5A, 0xDE, 0x73, 0x38, 0x89, 0x16, 0x3C, 0x68,
   0x91, 0x1C, 0xFC, 0x63, 0x1F, 0xC2, 0x10, 0x38, 0x89, 0x16, 0x3C, 0x68, 0x91, 0x1C, 0x10, 0x38,
   0xFA, 0x28, 0xA3, 0xFA, 0x49, 0xA3, 0x3D, 0x04, 0x0E, 0x04, 0x10, 0x5E, 0xFE, 0x20, 0x40, 0x81,
   0x02, 0x04, 0x08, 0x8C, 0x63, 0x18, 0xC6, 0x2E, 0xC6, 0x89, 0x13, 0x62, 0x85, 0x0A, 0x1C, 0x83,
   0x06, 0x4E, 0xB6, 0xCD, 0x9B, 0x36, 0xC6, 0xD8, 0xA1, 0xC3, 0x85, 0x1B, 0x63, 0xC6, 0x89, 0xB1,
   0x43, 0x82, 0x04, 0x08, 0x7C, 0x10, 0x86, 0x30, 0x84, 0x1F, 0xF8, 0x88, 0x88, 0x88, 0x88, 0xF0,
   0x86, 0x10, 0x82, 0x10, 0x82, 0x10, 0xC2, 0xF1, 0x11, 0x11, 0x11, 0x11, 0xF0, 0x10, 0x51, 0xB2,
   0x2C, 0x60, 0xF8, 0xB4, 0xF2, 0x60, 0xBE, 0x8B, 0xE0, 0x82, 0x08, 0x3E, 0x8A, 0x28, 0xA2, 0xF8,
   0x00, 0x74, 0x61, 0x08, 0xB8, 0x04, 0x10, 0x5F, 0x45, 0x14, 0x51, 0x7C, 0x00, 0x74, 0x7F, 0x08,
   0xB8, 0x39, 0x09, 0xF2, 0x10, 0x84, 0xF8, 0x0D, 0xC8, 0xA2, 0x72, 0x07, 0xA3, 0xF8, 0x00, 0x84,
   0x21, 0x6C, 0xC6, 0x31, 0x88, 0x10, 0x40, 0x1C, 0x10, 0x41, 0x04, 0x7C, 0x00, 0x11, 0x0F, 0x11,
   0x11, 0x11, 0xF0, 0x82, 0x08, 0x23, 0xB3, 0x8F, 0x26, 0x8C, 0xE1, 0x08, 0x42, 0x10, 0x84, 0xF8,
   0x7C, 0xA9, 0x52, 0xA5, 0x4A, 0x80, 0xB6, 0x63, 0x18, 0xC4, 0x74, 0x63, 0x18, 0xB8, 0xBB, 0x28,
   0xE3, 0x8B, 0xE8, 0x20, 0x75, 0x34, 0x71, 0x45, 0xF0, 0x41, 0x6C, 0xC2, 0x08, 0x21, 0xC0, 0x7C,
   0x78, 0x78, 0xFC, 0x10, 0x47, 0xC4, 0x10, 0x41, 0x07, 0x8C, 0x63, 0x18, 0xFC, 0xC6, 0x89, 0xB1,
   0x42, 0x82, 0x00, 0x93, 0x27, 0xBB, 0x66, 0xCD, 0x80, 0x44, 0x50, 0x40, 0x82, 0x88, 0x80, 0xC6,
   0x89, 0xB1, 0x43, 0x82, 0x04, 0x30, 0xF8, 0xCC, 0xCC, 0x7C, 0x39, 0x08, 0x41, 0x70, 0xC4, 0x21,
   0x0E, 0xFF, 0xE0, 0xE1, 0x08, 0x44, 0x1D, 0x84, 0x21, 0x38, 0x77, 0xB8, 0x38, 0x50, 0xE0, 0x03,
   0x85, 0x0A, 0x14, 0x6C, 0xF9, 0x16, 0x30, 0x0F, 0x8A, 0x0D, 0x04, 0x87, 0xFA, 0x21, 0x11, 0x8F,
   0x3A, 0x9D, 0x72, 0xA7, 0x4C, 0xB1, 0x5E, 0x00, 0xE1, 0x43, 0x80, 0x1F, 0x23, 0x02, 0xFD, 0x0B,
   0xF0, 0x00, 0xFB, 0xF1, 0x84, 0x1F, 0xFE, 0x08, 0x63, 0xF7, 0xC0, 0x3A, 0x99, 0x73, 0xA6, 0x57,
   0x00]

def glyphRow (bitmapOffset : ℕ) (width height xAdvance : UInt8) (xOffset yOffset : Int8) : Glyph :=
  ⟨bitmapOffset,width.toNat,height.toNat,xAdvance.toNat,xOffset.toInt,yOffset.toInt,
    ⟨width.toNat_lt,height.toNat_lt,xAdvance.toNat_lt⟩,
    ⟨xOffset.le_toInt,xOffset.toInt_lt⟩,yOffset.le_toInt,yOffset.toInt_lt⟩

def disabled (n : ℕ) : List Glyph := List.replicate n (glyphRow 0 0 0 0 0 0)

def IBMPlexMono_M6pt7bGlyphs : List Glyph :=
  [glyphRow 0 1 1 7 0 0, glyphRow 1 3 8 7 2 (-7), glyphRow 4 3 4 7 2 (-8),
   glyphRow 6 7 8 7 0 (-7), glyphRow 13 7 10 7 0 (-8), glyphRow 22 7 8 7 0 (-7),
   glyphRow 29 7 8 7 0 (-7), glyphRow 36 1 4 7 3 (-8), glyphRow 37 4 11 7 2 (-8),
   glyphRow 43 4 11 7 1 (-8), glyphRow 49 7 6 7 0 (-6), glyphRow 55 5 5 7 1 (-5),
   glyphRow 59 3 4 7 2 (-1), glyphRow 61 3 1 7 2 (-3), glyphRow 62 3 2 7 2 (-1),
   glyphRow 63 5 11 7 1 (-8), glyphRow 70 7 8 7 0 (-7), glyphRow 77 7 8 7 0 (-7),
   glyphRow 84 5 8 7 1 (-7), glyphRow 89 6 8 7 0 (-7), glyphRow 95 7 8 7 0 (-7),
   glyphRow 102 5 8 7 1 (-7), glyphRow 107 6 8 7 1 (-7), glyphRow 113 5 8 7 1 (-7),
   glyphRow 118 7 8 7 0 (-7), glyphRow 125 6 8 7 0 (-7), glyphRow 131 3 6 7 2 (-5),
   glyphRow 134 3 8 7 2 (-5), glyphRow 137 5 7 7 1 (-6), glyphRow 142 5 3 7 1 (-4),
   glyphRow 144 5 7 7 1 (-6), glyphRow 149 5 8 7 1 (-7), glyphRow 154 5 9 7 1 (-7),
   glyphRow 160 7 8 7 0 (-7), glyphRow 167 5 8 7 1 (-7), glyphRow 172 5 8 7 1 (-7),
   glyphRow 177 6 8 7 1 (-7), glyphRow 183 5 8 7 1 (-7), glyphRow 188 5 8 7 1 (-7),
   glyphRow 193 6 8 7 0 (-7), glyphRow 199 5 8 7 1 (-7), glyphRow 204 5 8 7 1 (-7),
   glyphRow 209 5 8 7 1 (-7), glyphRow 214 6 8 7 1 (-7), glyphRow 220 5 8 7 1 (-7),
   glyphRow 225 5 8 7 1 (-7), glyphRow 230 5 8 7 1 (-7), glyphRow 235 7 8 7 0 (-7),
   glyphRow 242 5 8 7 1 (-7), glyphRow 247 7 10 7 0 (-7), glyphRow 256 6 8 7 1 (-7),
   glyphRow 262 6 8 7 0 (-7), glyphRow 268 7 8 7 0 (-7), glyphRow 275 5 8 7 1 (-7),
   glyphRow 280 7 8 7 0 (-7), glyphRow 287 7 8 7 0 (-7), glyphRow 294 7 8 7 0 (-7),
   glyphRow 301 7 8 7 0 (-7), glyphRow 308 6 8 7 0 (-7), glyphRow 314 4 11 7 2 (-8),
   glyphRow 320 5 11 7 1 (-8), glyphRow 327 4 11 7 1 (-8), glyphRow 333 7 5 7 0 (-7),
   glyphRow 338 5 1 7 1 2, glyphRow 339 2 3 7 2 (-9), glyphRow 340 6 6 7 1 (-5),
   glyphRow 345 6 9 7 1 (-8), glyphRow 353 5 6 7 1 (-5), glyphRow 357 6 9 7 0 (-8),
   glyphRow 365 5 6 7 1 (-5), glyphRow 369 5 9 7 1 (-8), glyphRow 375 6 9 7 1 (-6),
   glyphRow 383 5 9 7 1 (-8), glyphRow 389 6 9 7 1 (-8), glyphRow 397 4 11 7 1 (-8),
   glyphRow 403 6 9 7 1 (-8), glyphRow 410 5 9 7 1 (-8), glyphRow 416 7 6 7 0 (-5),
   glyphRow 422 5 6 7 1 (-5), glyphRow 426 5 6 7 1 (-5), glyphRow 430 6 8 7 1 (-5),
   glyphRow 436 6 8 7 0 (-5), glyphRow 442 6 6 7 1 (-5), glyphRow 447 5 6 7 1 (-5),
   glyphRow 451 6 8 7 0 (-7), glyphRow 457 5 6 7 1 (-5), glyphRow 461 7 6 7 0 (-5),
   glyphRow 467 7 6 7 0 (-5), glyphRow 473 7 6 7 0 (-5), glyphRow 479 7 8 7 0 (-5),
   glyphRow 486 5 6 7 1 (-5), glyphRow 490 5 11 7 1 (-8), glyphRow 497 1 11 7 3 (-8),
   glyphRow 499 5 11 7 1 (-8), glyphRow 506 7 2 7 0 (-4)] ++ disabled 70 ++
  [glyphRow 508 7 12 7 0 (-11), glyphRow 519 9 8 9 0 (-7)] ++ disabled 17 ++
  [glyphRow 528 7 8 7 0 (-7)] ++ disabled 12 ++
  [glyphRow 535 7 11 7 0 (-10), glyphRow 546 11 6 11 0 (-5)] ++ disabled 17 ++
  [glyphRow 555 7 6 6 0 (-5)]

/-- As many glyphs as there are letters from the first to the last. -/
example : IBMPlexMono_M6pt7bGlyphs.length = 0xF8-0x20+1 := by decide +kernel

def IBMPlexMono_M6pt7b : Font where
  bitmap i := IBMPlexMono_M6pt7bBitmaps.getD i 0
  glyph i := IBMPlexMono_M6pt7bGlyphs.getD i (glyphRow 0 0 0 0 0 0)
  first := 0x20
  last := 0xF8
  yAdvance := 15
  byte := by decide

end THue.Fonts
