/-!
# General categories

Every character has one general category of the Unicode standard. The assignment is kept as
ascending runs; within a run the category depends at most on whether the distance from its first
code point is even or odd, because capital and small letters often alternate. What lies between
the runs is unassigned.
-/

set_option autoImplicit false

namespace Packrat.Unicode

/-- The general categories, under their two-letter names. -/
inductive Category
  | lu | ll | lt | lm | lo
  | mn | mc | me
  | nd | nl | no
  | pc | pd | ps | pe | pi | pf | po
  | sm | sc | sk | so
  | zs | zl | zp
  | cc | cf | cs | co | cn
  deriving DecidableEq, Repr

/-- Consecutive code points whose categories alternate between `even` and `odd`. -/
structure CategoryRun where
  first : Nat
  last : Nat
  even : Category
  odd : Category

/-- The category that ascending runs give a code point. -/
def categoryIn : List CategoryRun → Nat → Category
  | [], _ => .cn
  | run :: runs, code =>
    if code < run.first then .cn
    else if code ≤ run.last then
      if (code - run.first) % 2 = 0 then run.even else run.odd
    else categoryIn runs code

set_option maxRecDepth 20000 in
/-- The assigned code points, in ascending order. -/
def categoryRuns : List CategoryRun := [
  ⟨0x0, 0x1F, .cc, .cc⟩, ⟨0x20, 0x20, .zs, .zs⟩, ⟨0x21, 0x23, .po, .po⟩, ⟨0x24, 0x24, .sc, .sc⟩,
  ⟨0x25, 0x27, .po, .po⟩, ⟨0x28, 0x28, .ps, .ps⟩, ⟨0x29, 0x29, .pe, .pe⟩, ⟨0x2A, 0x2C, .po, .sm⟩,
  ⟨0x2D, 0x2D, .pd, .pd⟩, ⟨0x2E, 0x2F, .po, .po⟩, ⟨0x30, 0x39, .nd, .nd⟩, ⟨0x3A, 0x3B, .po, .po⟩,
  ⟨0x3C, 0x3E, .sm, .sm⟩, ⟨0x3F, 0x40, .po, .po⟩, ⟨0x41, 0x5A, .lu, .lu⟩, ⟨0x5B, 0x5B, .ps, .ps⟩,
  ⟨0x5C, 0x5C, .po, .po⟩, ⟨0x5D, 0x5D, .pe, .pe⟩, ⟨0x5E, 0x60, .sk, .pc⟩, ⟨0x61, 0x7A, .ll, .ll⟩,
  ⟨0x7B, 0x7B, .ps, .ps⟩, ⟨0x7C, 0x7E, .sm, .pe⟩, ⟨0x7F, 0x9F, .cc, .cc⟩, ⟨0xA0, 0xA0, .zs, .zs⟩,
  ⟨0xA1, 0xA1, .po, .po⟩, ⟨0xA2, 0xA5, .sc, .sc⟩, ⟨0xA6, 0xA6, .so, .so⟩, ⟨0xA7, 0xA7, .po, .po⟩,
  ⟨0xA8, 0xA8, .sk, .sk⟩, ⟨0xA9, 0xA9, .so, .so⟩, ⟨0xAA, 0xAA, .lo, .lo⟩, ⟨0xAB, 0xAB, .pi, .pi⟩,
  ⟨0xAC, 0xAC, .sm, .sm⟩, ⟨0xAD, 0xAD, .cf, .cf⟩, ⟨0xAE, 0xB0, .so, .sk⟩, ⟨0xB1, 0xB1, .sm, .sm⟩,
  ⟨0xB2, 0xB3, .no, .no⟩, ⟨0xB4, 0xB4, .sk, .sk⟩, ⟨0xB5, 0xB5, .ll, .ll⟩, ⟨0xB6, 0xB7, .po, .po⟩,
  ⟨0xB8, 0xB8, .sk, .sk⟩, ⟨0xB9, 0xB9, .no, .no⟩, ⟨0xBA, 0xBA, .lo, .lo⟩, ⟨0xBB, 0xBB, .pf, .pf⟩,
  ⟨0xBC, 0xBE, .no, .no⟩, ⟨0xBF, 0xBF, .po, .po⟩, ⟨0xC0, 0xD6, .lu, .lu⟩, ⟨0xD7, 0xD7, .sm, .sm⟩,
  ⟨0xD8, 0xDE, .lu, .lu⟩, ⟨0xDF, 0xF6, .ll, .ll⟩, ⟨0xF7, 0xF7, .sm, .sm⟩, ⟨0xF8, 0xFF, .ll, .ll⟩,
  ⟨0x100, 0x136, .lu, .ll⟩, ⟨0x137, 0x138, .ll, .ll⟩, ⟨0x139, 0x147, .lu, .ll⟩,
  ⟨0x148, 0x149, .ll, .ll⟩, ⟨0x14A, 0x177, .lu, .ll⟩, ⟨0x178, 0x179, .lu, .lu⟩,
  ⟨0x17A, 0x17D, .ll, .lu⟩, ⟨0x17E, 0x180, .ll, .ll⟩, ⟨0x181, 0x182, .lu, .lu⟩,
  ⟨0x183, 0x185, .ll, .lu⟩, ⟨0x186, 0x187, .lu, .lu⟩, ⟨0x188, 0x188, .ll, .ll⟩,
  ⟨0x189, 0x18B, .lu, .lu⟩, ⟨0x18C, 0x18D, .ll, .ll⟩, ⟨0x18E, 0x191, .lu, .lu⟩,
  ⟨0x192, 0x192, .ll, .ll⟩, ⟨0x193, 0x194, .lu, .lu⟩, ⟨0x195, 0x195, .ll, .ll⟩,
  ⟨0x196, 0x198, .lu, .lu⟩, ⟨0x199, 0x19B, .ll, .ll⟩, ⟨0x19C, 0x19D, .lu, .lu⟩,
  ⟨0x19E, 0x19E, .ll, .ll⟩, ⟨0x19F, 0x1A0, .lu, .lu⟩, ⟨0x1A1, 0x1A5, .ll, .lu⟩,
  ⟨0x1A6, 0x1A7, .lu, .lu⟩, ⟨0x1A8, 0x1A8, .ll, .ll⟩, ⟨0x1A9, 0x1A9, .lu, .lu⟩,
  ⟨0x1AA, 0x1AB, .ll, .ll⟩, ⟨0x1AC, 0x1AC, .lu, .lu⟩, ⟨0x1AD, 0x1AD, .ll, .ll⟩,
  ⟨0x1AE, 0x1AF, .lu, .lu⟩, ⟨0x1B0, 0x1B0, .ll, .ll⟩, ⟨0x1B1, 0x1B3, .lu, .lu⟩,
  ⟨0x1B4, 0x1B6, .ll, .lu⟩, ⟨0x1B7, 0x1B8, .lu, .lu⟩, ⟨0x1B9, 0x1BA, .ll, .ll⟩,
  ⟨0x1BB, 0x1BB, .lo, .lo⟩, ⟨0x1BC, 0x1BC, .lu, .lu⟩, ⟨0x1BD, 0x1BF, .ll, .ll⟩,
  ⟨0x1C0, 0x1C3, .lo, .lo⟩, ⟨0x1C4, 0x1C4, .lu, .lu⟩, ⟨0x1C5, 0x1C5, .lt, .lt⟩,
  ⟨0x1C6, 0x1C6, .ll, .ll⟩, ⟨0x1C7, 0x1C7, .lu, .lu⟩, ⟨0x1C8, 0x1C8, .lt, .lt⟩,
  ⟨0x1C9, 0x1C9, .ll, .ll⟩, ⟨0x1CA, 0x1CA, .lu, .lu⟩, ⟨0x1CB, 0x1CB, .lt, .lt⟩,
  ⟨0x1CC, 0x1DB, .ll, .lu⟩, ⟨0x1DC, 0x1DD, .ll, .ll⟩, ⟨0x1DE, 0x1EE, .lu, .ll⟩,
  ⟨0x1EF, 0x1F0, .ll, .ll⟩, ⟨0x1F1, 0x1F1, .lu, .lu⟩, ⟨0x1F2, 0x1F2, .lt, .lt⟩,
  ⟨0x1F3, 0x1F5, .ll, .lu⟩, ⟨0x1F6, 0x1F8, .lu, .lu⟩, ⟨0x1F9, 0x232, .ll, .lu⟩,
  ⟨0x233, 0x239, .ll, .ll⟩, ⟨0x23A, 0x23B, .lu, .lu⟩, ⟨0x23C, 0x23C, .ll, .ll⟩,
  ⟨0x23D, 0x23E, .lu, .lu⟩, ⟨0x23F, 0x240, .ll, .ll⟩, ⟨0x241, 0x241, .lu, .lu⟩,
  ⟨0x242, 0x242, .ll, .ll⟩, ⟨0x243, 0x246, .lu, .lu⟩, ⟨0x247, 0x24E, .ll, .lu⟩,
  ⟨0x24F, 0x293, .ll, .ll⟩, ⟨0x294, 0x294, .lo, .lo⟩, ⟨0x295, 0x2AF, .ll, .ll⟩,
  ⟨0x2B0, 0x2C1, .lm, .lm⟩, ⟨0x2C2, 0x2C5, .sk, .sk⟩, ⟨0x2C6, 0x2D1, .lm, .lm⟩,
  ⟨0x2D2, 0x2DF, .sk, .sk⟩, ⟨0x2E0, 0x2E4, .lm, .lm⟩, ⟨0x2E5, 0x2EB, .sk, .sk⟩,
  ⟨0x2EC, 0x2EE, .lm, .sk⟩, ⟨0x2EF, 0x2FF, .sk, .sk⟩, ⟨0x300, 0x36F, .mn, .mn⟩,
  ⟨0x370, 0x373, .lu, .ll⟩, ⟨0x374, 0x374, .lm, .lm⟩, ⟨0x375, 0x375, .sk, .sk⟩,
  ⟨0x376, 0x376, .lu, .lu⟩, ⟨0x377, 0x377, .ll, .ll⟩, ⟨0x37A, 0x37A, .lm, .lm⟩,
  ⟨0x37B, 0x37D, .ll, .ll⟩, ⟨0x37E, 0x37E, .po, .po⟩, ⟨0x37F, 0x37F, .lu, .lu⟩,
  ⟨0x384, 0x385, .sk, .sk⟩, ⟨0x386, 0x386, .lu, .lu⟩, ⟨0x387, 0x387, .po, .po⟩,
  ⟨0x388, 0x38A, .lu, .lu⟩, ⟨0x38C, 0x38C, .lu, .lu⟩, ⟨0x38E, 0x38F, .lu, .lu⟩,
  ⟨0x390, 0x390, .ll, .ll⟩, ⟨0x391, 0x3A1, .lu, .lu⟩, ⟨0x3A3, 0x3AB, .lu, .lu⟩,
  ⟨0x3AC, 0x3CE, .ll, .ll⟩, ⟨0x3CF, 0x3CF, .lu, .lu⟩, ⟨0x3D0, 0x3D1, .ll, .ll⟩,
  ⟨0x3D2, 0x3D4, .lu, .lu⟩, ⟨0x3D5, 0x3D7, .ll, .ll⟩, ⟨0x3D8, 0x3EE, .lu, .ll⟩,
  ⟨0x3EF, 0x3F3, .ll, .ll⟩, ⟨0x3F4, 0x3F4, .lu, .lu⟩, ⟨0x3F5, 0x3F5, .ll, .ll⟩,
  ⟨0x3F6, 0x3F6, .sm, .sm⟩, ⟨0x3F7, 0x3F7, .lu, .lu⟩, ⟨0x3F8, 0x3F8, .ll, .ll⟩,
  ⟨0x3F9, 0x3FA, .lu, .lu⟩, ⟨0x3FB, 0x3FC, .ll, .ll⟩, ⟨0x3FD, 0x42F, .lu, .lu⟩,
  ⟨0x430, 0x45F, .ll, .ll⟩, ⟨0x460, 0x481, .lu, .ll⟩, ⟨0x482, 0x482, .so, .so⟩,
  ⟨0x483, 0x487, .mn, .mn⟩, ⟨0x488, 0x489, .me, .me⟩, ⟨0x48A, 0x4BF, .lu, .ll⟩,
  ⟨0x4C0, 0x4C1, .lu, .lu⟩, ⟨0x4C2, 0x4CD, .ll, .lu⟩, ⟨0x4CE, 0x4CF, .ll, .ll⟩,
  ⟨0x4D0, 0x52F, .lu, .ll⟩, ⟨0x531, 0x556, .lu, .lu⟩, ⟨0x559, 0x559, .lm, .lm⟩,
  ⟨0x55A, 0x55F, .po, .po⟩, ⟨0x560, 0x588, .ll, .ll⟩, ⟨0x589, 0x589, .po, .po⟩,
  ⟨0x58A, 0x58A, .pd, .pd⟩, ⟨0x58D, 0x58E, .so, .so⟩, ⟨0x58F, 0x58F, .sc, .sc⟩,
  ⟨0x591, 0x5BD, .mn, .mn⟩, ⟨0x5BE, 0x5BE, .pd, .pd⟩, ⟨0x5BF, 0x5BF, .mn, .mn⟩,
  ⟨0x5C0, 0x5C0, .po, .po⟩, ⟨0x5C1, 0x5C2, .mn, .mn⟩, ⟨0x5C3, 0x5C3, .po, .po⟩,
  ⟨0x5C4, 0x5C5, .mn, .mn⟩, ⟨0x5C6, 0x5C6, .po, .po⟩, ⟨0x5C7, 0x5C7, .mn, .mn⟩,
  ⟨0x5D0, 0x5EA, .lo, .lo⟩, ⟨0x5EF, 0x5F2, .lo, .lo⟩, ⟨0x5F3, 0x5F4, .po, .po⟩,
  ⟨0x600, 0x605, .cf, .cf⟩, ⟨0x606, 0x608, .sm, .sm⟩, ⟨0x609, 0x60A, .po, .po⟩,
  ⟨0x60B, 0x60B, .sc, .sc⟩, ⟨0x60C, 0x60D, .po, .po⟩, ⟨0x60E, 0x60F, .so, .so⟩,
  ⟨0x610, 0x61A, .mn, .mn⟩, ⟨0x61B, 0x61B, .po, .po⟩, ⟨0x61C, 0x61C, .cf, .cf⟩,
  ⟨0x61D, 0x61F, .po, .po⟩, ⟨0x620, 0x63F, .lo, .lo⟩, ⟨0x640, 0x640, .lm, .lm⟩,
  ⟨0x641, 0x64A, .lo, .lo⟩, ⟨0x64B, 0x65F, .mn, .mn⟩, ⟨0x660, 0x669, .nd, .nd⟩,
  ⟨0x66A, 0x66D, .po, .po⟩, ⟨0x66E, 0x66F, .lo, .lo⟩, ⟨0x670, 0x670, .mn, .mn⟩,
  ⟨0x671, 0x6D3, .lo, .lo⟩, ⟨0x6D4, 0x6D4, .po, .po⟩, ⟨0x6D5, 0x6D5, .lo, .lo⟩,
  ⟨0x6D6, 0x6DC, .mn, .mn⟩, ⟨0x6DD, 0x6DD, .cf, .cf⟩, ⟨0x6DE, 0x6DE, .so, .so⟩,
  ⟨0x6DF, 0x6E4, .mn, .mn⟩, ⟨0x6E5, 0x6E6, .lm, .lm⟩, ⟨0x6E7, 0x6E8, .mn, .mn⟩,
  ⟨0x6E9, 0x6E9, .so, .so⟩, ⟨0x6EA, 0x6ED, .mn, .mn⟩, ⟨0x6EE, 0x6EF, .lo, .lo⟩,
  ⟨0x6F0, 0x6F9, .nd, .nd⟩, ⟨0x6FA, 0x6FC, .lo, .lo⟩, ⟨0x6FD, 0x6FE, .so, .so⟩,
  ⟨0x6FF, 0x6FF, .lo, .lo⟩, ⟨0x700, 0x70D, .po, .po⟩, ⟨0x70F, 0x70F, .cf, .cf⟩,
  ⟨0x710, 0x710, .lo, .lo⟩, ⟨0x711, 0x711, .mn, .mn⟩, ⟨0x712, 0x72F, .lo, .lo⟩,
  ⟨0x730, 0x74A, .mn, .mn⟩, ⟨0x74D, 0x7A5, .lo, .lo⟩, ⟨0x7A6, 0x7B0, .mn, .mn⟩,
  ⟨0x7B1, 0x7B1, .lo, .lo⟩, ⟨0x7C0, 0x7C9, .nd, .nd⟩, ⟨0x7CA, 0x7EA, .lo, .lo⟩,
  ⟨0x7EB, 0x7F3, .mn, .mn⟩, ⟨0x7F4, 0x7F5, .lm, .lm⟩, ⟨0x7F6, 0x7F6, .so, .so⟩,
  ⟨0x7F7, 0x7F9, .po, .po⟩, ⟨0x7FA, 0x7FA, .lm, .lm⟩, ⟨0x7FD, 0x7FD, .mn, .mn⟩,
  ⟨0x7FE, 0x7FF, .sc, .sc⟩, ⟨0x800, 0x815, .lo, .lo⟩, ⟨0x816, 0x819, .mn, .mn⟩,
  ⟨0x81A, 0x81A, .lm, .lm⟩, ⟨0x81B, 0x823, .mn, .mn⟩, ⟨0x824, 0x824, .lm, .lm⟩,
  ⟨0x825, 0x827, .mn, .mn⟩, ⟨0x828, 0x828, .lm, .lm⟩, ⟨0x829, 0x82D, .mn, .mn⟩,
  ⟨0x830, 0x83E, .po, .po⟩, ⟨0x840, 0x858, .lo, .lo⟩, ⟨0x859, 0x85B, .mn, .mn⟩,
  ⟨0x85E, 0x85E, .po, .po⟩, ⟨0x860, 0x86A, .lo, .lo⟩, ⟨0x870, 0x887, .lo, .lo⟩,
  ⟨0x888, 0x888, .sk, .sk⟩, ⟨0x889, 0x88E, .lo, .lo⟩, ⟨0x890, 0x891, .cf, .cf⟩,
  ⟨0x898, 0x89F, .mn, .mn⟩, ⟨0x8A0, 0x8C8, .lo, .lo⟩, ⟨0x8C9, 0x8C9, .lm, .lm⟩,
  ⟨0x8CA, 0x8E1, .mn, .mn⟩, ⟨0x8E2, 0x8E2, .cf, .cf⟩, ⟨0x8E3, 0x902, .mn, .mn⟩,
  ⟨0x903, 0x903, .mc, .mc⟩, ⟨0x904, 0x939, .lo, .lo⟩, ⟨0x93A, 0x93C, .mn, .mc⟩,
  ⟨0x93D, 0x93D, .lo, .lo⟩, ⟨0x93E, 0x940, .mc, .mc⟩, ⟨0x941, 0x948, .mn, .mn⟩,
  ⟨0x949, 0x94C, .mc, .mc⟩, ⟨0x94D, 0x94D, .mn, .mn⟩, ⟨0x94E, 0x94F, .mc, .mc⟩,
  ⟨0x950, 0x950, .lo, .lo⟩, ⟨0x951, 0x957, .mn, .mn⟩, ⟨0x958, 0x961, .lo, .lo⟩,
  ⟨0x962, 0x963, .mn, .mn⟩, ⟨0x964, 0x965, .po, .po⟩, ⟨0x966, 0x96F, .nd, .nd⟩,
  ⟨0x970, 0x970, .po, .po⟩, ⟨0x971, 0x971, .lm, .lm⟩, ⟨0x972, 0x980, .lo, .lo⟩,
  ⟨0x981, 0x981, .mn, .mn⟩, ⟨0x982, 0x983, .mc, .mc⟩, ⟨0x985, 0x98C, .lo, .lo⟩,
  ⟨0x98F, 0x990, .lo, .lo⟩, ⟨0x993, 0x9A8, .lo, .lo⟩, ⟨0x9AA, 0x9B0, .lo, .lo⟩,
  ⟨0x9B2, 0x9B2, .lo, .lo⟩, ⟨0x9B6, 0x9B9, .lo, .lo⟩, ⟨0x9BC, 0x9BC, .mn, .mn⟩,
  ⟨0x9BD, 0x9BD, .lo, .lo⟩, ⟨0x9BE, 0x9C0, .mc, .mc⟩, ⟨0x9C1, 0x9C4, .mn, .mn⟩,
  ⟨0x9C7, 0x9C8, .mc, .mc⟩, ⟨0x9CB, 0x9CC, .mc, .mc⟩, ⟨0x9CD, 0x9CD, .mn, .mn⟩,
  ⟨0x9CE, 0x9CE, .lo, .lo⟩, ⟨0x9D7, 0x9D7, .mc, .mc⟩, ⟨0x9DC, 0x9DD, .lo, .lo⟩,
  ⟨0x9DF, 0x9E1, .lo, .lo⟩, ⟨0x9E2, 0x9E3, .mn, .mn⟩, ⟨0x9E6, 0x9EF, .nd, .nd⟩,
  ⟨0x9F0, 0x9F1, .lo, .lo⟩, ⟨0x9F2, 0x9F3, .sc, .sc⟩, ⟨0x9F4, 0x9F9, .no, .no⟩,
  ⟨0x9FA, 0x9FA, .so, .so⟩, ⟨0x9FB, 0x9FB, .sc, .sc⟩, ⟨0x9FC, 0x9FC, .lo, .lo⟩,
  ⟨0x9FD, 0x9FD, .po, .po⟩, ⟨0x9FE, 0x9FE, .mn, .mn⟩, ⟨0xA01, 0xA02, .mn, .mn⟩,
  ⟨0xA03, 0xA03, .mc, .mc⟩, ⟨0xA05, 0xA0A, .lo, .lo⟩, ⟨0xA0F, 0xA10, .lo, .lo⟩,
  ⟨0xA13, 0xA28, .lo, .lo⟩, ⟨0xA2A, 0xA30, .lo, .lo⟩, ⟨0xA32, 0xA33, .lo, .lo⟩,
  ⟨0xA35, 0xA36, .lo, .lo⟩, ⟨0xA38, 0xA39, .lo, .lo⟩, ⟨0xA3C, 0xA3C, .mn, .mn⟩,
  ⟨0xA3E, 0xA40, .mc, .mc⟩, ⟨0xA41, 0xA42, .mn, .mn⟩, ⟨0xA47, 0xA48, .mn, .mn⟩,
  ⟨0xA4B, 0xA4D, .mn, .mn⟩, ⟨0xA51, 0xA51, .mn, .mn⟩, ⟨0xA59, 0xA5C, .lo, .lo⟩,
  ⟨0xA5E, 0xA5E, .lo, .lo⟩, ⟨0xA66, 0xA6F, .nd, .nd⟩, ⟨0xA70, 0xA71, .mn, .mn⟩,
  ⟨0xA72, 0xA74, .lo, .lo⟩, ⟨0xA75, 0xA75, .mn, .mn⟩, ⟨0xA76, 0xA76, .po, .po⟩,
  ⟨0xA81, 0xA82, .mn, .mn⟩, ⟨0xA83, 0xA83, .mc, .mc⟩, ⟨0xA85, 0xA8D, .lo, .lo⟩,
  ⟨0xA8F, 0xA91, .lo, .lo⟩, ⟨0xA93, 0xAA8, .lo, .lo⟩, ⟨0xAAA, 0xAB0, .lo, .lo⟩,
  ⟨0xAB2, 0xAB3, .lo, .lo⟩, ⟨0xAB5, 0xAB9, .lo, .lo⟩, ⟨0xABC, 0xABC, .mn, .mn⟩,
  ⟨0xABD, 0xABD, .lo, .lo⟩, ⟨0xABE, 0xAC0, .mc, .mc⟩, ⟨0xAC1, 0xAC5, .mn, .mn⟩,
  ⟨0xAC7, 0xAC8, .mn, .mn⟩, ⟨0xAC9, 0xAC9, .mc, .mc⟩, ⟨0xACB, 0xACC, .mc, .mc⟩,
  ⟨0xACD, 0xACD, .mn, .mn⟩, ⟨0xAD0, 0xAD0, .lo, .lo⟩, ⟨0xAE0, 0xAE1, .lo, .lo⟩,
  ⟨0xAE2, 0xAE3, .mn, .mn⟩, ⟨0xAE6, 0xAEF, .nd, .nd⟩, ⟨0xAF0, 0xAF0, .po, .po⟩,
  ⟨0xAF1, 0xAF1, .sc, .sc⟩, ⟨0xAF9, 0xAF9, .lo, .lo⟩, ⟨0xAFA, 0xAFF, .mn, .mn⟩,
  ⟨0xB01, 0xB01, .mn, .mn⟩, ⟨0xB02, 0xB03, .mc, .mc⟩, ⟨0xB05, 0xB0C, .lo, .lo⟩,
  ⟨0xB0F, 0xB10, .lo, .lo⟩, ⟨0xB13, 0xB28, .lo, .lo⟩, ⟨0xB2A, 0xB30, .lo, .lo⟩,
  ⟨0xB32, 0xB33, .lo, .lo⟩, ⟨0xB35, 0xB39, .lo, .lo⟩, ⟨0xB3C, 0xB3C, .mn, .mn⟩,
  ⟨0xB3D, 0xB3D, .lo, .lo⟩, ⟨0xB3E, 0xB40, .mc, .mn⟩, ⟨0xB41, 0xB44, .mn, .mn⟩,
  ⟨0xB47, 0xB48, .mc, .mc⟩, ⟨0xB4B, 0xB4C, .mc, .mc⟩, ⟨0xB4D, 0xB4D, .mn, .mn⟩,
  ⟨0xB55, 0xB56, .mn, .mn⟩, ⟨0xB57, 0xB57, .mc, .mc⟩, ⟨0xB5C, 0xB5D, .lo, .lo⟩,
  ⟨0xB5F, 0xB61, .lo, .lo⟩, ⟨0xB62, 0xB63, .mn, .mn⟩, ⟨0xB66, 0xB6F, .nd, .nd⟩,
  ⟨0xB70, 0xB70, .so, .so⟩, ⟨0xB71, 0xB71, .lo, .lo⟩, ⟨0xB72, 0xB77, .no, .no⟩,
  ⟨0xB82, 0xB82, .mn, .mn⟩, ⟨0xB83, 0xB83, .lo, .lo⟩, ⟨0xB85, 0xB8A, .lo, .lo⟩,
  ⟨0xB8E, 0xB90, .lo, .lo⟩, ⟨0xB92, 0xB95, .lo, .lo⟩, ⟨0xB99, 0xB9A, .lo, .lo⟩,
  ⟨0xB9C, 0xB9C, .lo, .lo⟩, ⟨0xB9E, 0xB9F, .lo, .lo⟩, ⟨0xBA3, 0xBA4, .lo, .lo⟩,
  ⟨0xBA8, 0xBAA, .lo, .lo⟩, ⟨0xBAE, 0xBB9, .lo, .lo⟩, ⟨0xBBE, 0xBBF, .mc, .mc⟩,
  ⟨0xBC0, 0xBC0, .mn, .mn⟩, ⟨0xBC1, 0xBC2, .mc, .mc⟩, ⟨0xBC6, 0xBC8, .mc, .mc⟩,
  ⟨0xBCA, 0xBCC, .mc, .mc⟩, ⟨0xBCD, 0xBCD, .mn, .mn⟩, ⟨0xBD0, 0xBD0, .lo, .lo⟩,
  ⟨0xBD7, 0xBD7, .mc, .mc⟩, ⟨0xBE6, 0xBEF, .nd, .nd⟩, ⟨0xBF0, 0xBF2, .no, .no⟩,
  ⟨0xBF3, 0xBF8, .so, .so⟩, ⟨0xBF9, 0xBF9, .sc, .sc⟩, ⟨0xBFA, 0xBFA, .so, .so⟩,
  ⟨0xC00, 0xC00, .mn, .mn⟩, ⟨0xC01, 0xC03, .mc, .mc⟩, ⟨0xC04, 0xC04, .mn, .mn⟩,
  ⟨0xC05, 0xC0C, .lo, .lo⟩, ⟨0xC0E, 0xC10, .lo, .lo⟩, ⟨0xC12, 0xC28, .lo, .lo⟩,
  ⟨0xC2A, 0xC39, .lo, .lo⟩, ⟨0xC3C, 0xC3C, .mn, .mn⟩, ⟨0xC3D, 0xC3D, .lo, .lo⟩,
  ⟨0xC3E, 0xC40, .mn, .mn⟩, ⟨0xC41, 0xC44, .mc, .mc⟩, ⟨0xC46, 0xC48, .mn, .mn⟩,
  ⟨0xC4A, 0xC4D, .mn, .mn⟩, ⟨0xC55, 0xC56, .mn, .mn⟩, ⟨0xC58, 0xC5A, .lo, .lo⟩,
  ⟨0xC5D, 0xC5D, .lo, .lo⟩, ⟨0xC60, 0xC61, .lo, .lo⟩, ⟨0xC62, 0xC63, .mn, .mn⟩,
  ⟨0xC66, 0xC6F, .nd, .nd⟩, ⟨0xC77, 0xC77, .po, .po⟩, ⟨0xC78, 0xC7E, .no, .no⟩,
  ⟨0xC7F, 0xC7F, .so, .so⟩, ⟨0xC80, 0xC80, .lo, .lo⟩, ⟨0xC81, 0xC81, .mn, .mn⟩,
  ⟨0xC82, 0xC83, .mc, .mc⟩, ⟨0xC84, 0xC84, .po, .po⟩, ⟨0xC85, 0xC8C, .lo, .lo⟩,
  ⟨0xC8E, 0xC90, .lo, .lo⟩, ⟨0xC92, 0xCA8, .lo, .lo⟩, ⟨0xCAA, 0xCB3, .lo, .lo⟩,
  ⟨0xCB5, 0xCB9, .lo, .lo⟩, ⟨0xCBC, 0xCBC, .mn, .mn⟩, ⟨0xCBD, 0xCBD, .lo, .lo⟩,
  ⟨0xCBE, 0xCBE, .mc, .mc⟩, ⟨0xCBF, 0xCBF, .mn, .mn⟩, ⟨0xCC0, 0xCC4, .mc, .mc⟩,
  ⟨0xCC6, 0xCC6, .mn, .mn⟩, ⟨0xCC7, 0xCC8, .mc, .mc⟩, ⟨0xCCA, 0xCCB, .mc, .mc⟩,
  ⟨0xCCC, 0xCCD, .mn, .mn⟩, ⟨0xCD5, 0xCD6, .mc, .mc⟩, ⟨0xCDD, 0xCDE, .lo, .lo⟩,
  ⟨0xCE0, 0xCE1, .lo, .lo⟩, ⟨0xCE2, 0xCE3, .mn, .mn⟩, ⟨0xCE6, 0xCEF, .nd, .nd⟩,
  ⟨0xCF1, 0xCF2, .lo, .lo⟩, ⟨0xCF3, 0xCF3, .mc, .mc⟩, ⟨0xD00, 0xD01, .mn, .mn⟩,
  ⟨0xD02, 0xD03, .mc, .mc⟩, ⟨0xD04, 0xD0C, .lo, .lo⟩, ⟨0xD0E, 0xD10, .lo, .lo⟩,
  ⟨0xD12, 0xD3A, .lo, .lo⟩, ⟨0xD3B, 0xD3C, .mn, .mn⟩, ⟨0xD3D, 0xD3D, .lo, .lo⟩,
  ⟨0xD3E, 0xD40, .mc, .mc⟩, ⟨0xD41, 0xD44, .mn, .mn⟩, ⟨0xD46, 0xD48, .mc, .mc⟩,
  ⟨0xD4A, 0xD4C, .mc, .mc⟩, ⟨0xD4D, 0xD4D, .mn, .mn⟩, ⟨0xD4E, 0xD4E, .lo, .lo⟩,
  ⟨0xD4F, 0xD4F, .so, .so⟩, ⟨0xD54, 0xD56, .lo, .lo⟩, ⟨0xD57, 0xD57, .mc, .mc⟩,
  ⟨0xD58, 0xD5E, .no, .no⟩, ⟨0xD5F, 0xD61, .lo, .lo⟩, ⟨0xD62, 0xD63, .mn, .mn⟩,
  ⟨0xD66, 0xD6F, .nd, .nd⟩, ⟨0xD70, 0xD78, .no, .no⟩, ⟨0xD79, 0xD79, .so, .so⟩,
  ⟨0xD7A, 0xD7F, .lo, .lo⟩, ⟨0xD81, 0xD81, .mn, .mn⟩, ⟨0xD82, 0xD83, .mc, .mc⟩,
  ⟨0xD85, 0xD96, .lo, .lo⟩, ⟨0xD9A, 0xDB1, .lo, .lo⟩, ⟨0xDB3, 0xDBB, .lo, .lo⟩,
  ⟨0xDBD, 0xDBD, .lo, .lo⟩, ⟨0xDC0, 0xDC6, .lo, .lo⟩, ⟨0xDCA, 0xDCA, .mn, .mn⟩,
  ⟨0xDCF, 0xDD1, .mc, .mc⟩, ⟨0xDD2, 0xDD4, .mn, .mn⟩, ⟨0xDD6, 0xDD6, .mn, .mn⟩,
  ⟨0xDD8, 0xDDF, .mc, .mc⟩, ⟨0xDE6, 0xDEF, .nd, .nd⟩, ⟨0xDF2, 0xDF3, .mc, .mc⟩,
  ⟨0xDF4, 0xDF4, .po, .po⟩, ⟨0xE01, 0xE30, .lo, .lo⟩, ⟨0xE31, 0xE31, .mn, .mn⟩,
  ⟨0xE32, 0xE33, .lo, .lo⟩, ⟨0xE34, 0xE3A, .mn, .mn⟩, ⟨0xE3F, 0xE3F, .sc, .sc⟩,
  ⟨0xE40, 0xE45, .lo, .lo⟩, ⟨0xE46, 0xE46, .lm, .lm⟩, ⟨0xE47, 0xE4E, .mn, .mn⟩,
  ⟨0xE4F, 0xE4F, .po, .po⟩, ⟨0xE50, 0xE59, .nd, .nd⟩, ⟨0xE5A, 0xE5B, .po, .po⟩,
  ⟨0xE81, 0xE82, .lo, .lo⟩, ⟨0xE84, 0xE84, .lo, .lo⟩, ⟨0xE86, 0xE8A, .lo, .lo⟩,
  ⟨0xE8C, 0xEA3, .lo, .lo⟩, ⟨0xEA5, 0xEA5, .lo, .lo⟩, ⟨0xEA7, 0xEB0, .lo, .lo⟩,
  ⟨0xEB1, 0xEB1, .mn, .mn⟩, ⟨0xEB2, 0xEB3, .lo, .lo⟩, ⟨0xEB4, 0xEBC, .mn, .mn⟩,
  ⟨0xEBD, 0xEBD, .lo, .lo⟩, ⟨0xEC0, 0xEC4, .lo, .lo⟩, ⟨0xEC6, 0xEC6, .lm, .lm⟩,
  ⟨0xEC8, 0xECE, .mn, .mn⟩, ⟨0xED0, 0xED9, .nd, .nd⟩, ⟨0xEDC, 0xEDF, .lo, .lo⟩,
  ⟨0xF00, 0xF00, .lo, .lo⟩, ⟨0xF01, 0xF03, .so, .so⟩, ⟨0xF04, 0xF12, .po, .po⟩,
  ⟨0xF13, 0xF13, .so, .so⟩, ⟨0xF14, 0xF14, .po, .po⟩, ⟨0xF15, 0xF17, .so, .so⟩,
  ⟨0xF18, 0xF19, .mn, .mn⟩, ⟨0xF1A, 0xF1F, .so, .so⟩, ⟨0xF20, 0xF29, .nd, .nd⟩,
  ⟨0xF2A, 0xF33, .no, .no⟩, ⟨0xF34, 0xF39, .so, .mn⟩, ⟨0xF3A, 0xF3D, .ps, .pe⟩,
  ⟨0xF3E, 0xF3F, .mc, .mc⟩, ⟨0xF40, 0xF47, .lo, .lo⟩, ⟨0xF49, 0xF6C, .lo, .lo⟩,
  ⟨0xF71, 0xF7E, .mn, .mn⟩, ⟨0xF7F, 0xF7F, .mc, .mc⟩, ⟨0xF80, 0xF84, .mn, .mn⟩,
  ⟨0xF85, 0xF85, .po, .po⟩, ⟨0xF86, 0xF87, .mn, .mn⟩, ⟨0xF88, 0xF8C, .lo, .lo⟩,
  ⟨0xF8D, 0xF97, .mn, .mn⟩, ⟨0xF99, 0xFBC, .mn, .mn⟩, ⟨0xFBE, 0xFC5, .so, .so⟩,
  ⟨0xFC6, 0xFC6, .mn, .mn⟩, ⟨0xFC7, 0xFCC, .so, .so⟩, ⟨0xFCE, 0xFCF, .so, .so⟩,
  ⟨0xFD0, 0xFD4, .po, .po⟩, ⟨0xFD5, 0xFD8, .so, .so⟩, ⟨0xFD9, 0xFDA, .po, .po⟩,
  ⟨0x1000, 0x102A, .lo, .lo⟩, ⟨0x102B, 0x102C, .mc, .mc⟩, ⟨0x102D, 0x1030, .mn, .mn⟩,
  ⟨0x1031, 0x1031, .mc, .mc⟩, ⟨0x1032, 0x1037, .mn, .mn⟩, ⟨0x1038, 0x1038, .mc, .mc⟩,
  ⟨0x1039, 0x103A, .mn, .mn⟩, ⟨0x103B, 0x103C, .mc, .mc⟩, ⟨0x103D, 0x103E, .mn, .mn⟩,
  ⟨0x103F, 0x103F, .lo, .lo⟩, ⟨0x1040, 0x1049, .nd, .nd⟩, ⟨0x104A, 0x104F, .po, .po⟩,
  ⟨0x1050, 0x1055, .lo, .lo⟩, ⟨0x1056, 0x1057, .mc, .mc⟩, ⟨0x1058, 0x1059, .mn, .mn⟩,
  ⟨0x105A, 0x105D, .lo, .lo⟩, ⟨0x105E, 0x1060, .mn, .mn⟩, ⟨0x1061, 0x1061, .lo, .lo⟩,
  ⟨0x1062, 0x1064, .mc, .mc⟩, ⟨0x1065, 0x1066, .lo, .lo⟩, ⟨0x1067, 0x106D, .mc, .mc⟩,
  ⟨0x106E, 0x1070, .lo, .lo⟩, ⟨0x1071, 0x1074, .mn, .mn⟩, ⟨0x1075, 0x1081, .lo, .lo⟩,
  ⟨0x1082, 0x1082, .mn, .mn⟩, ⟨0x1083, 0x1084, .mc, .mc⟩, ⟨0x1085, 0x1086, .mn, .mn⟩,
  ⟨0x1087, 0x108C, .mc, .mc⟩, ⟨0x108D, 0x108D, .mn, .mn⟩, ⟨0x108E, 0x108E, .lo, .lo⟩,
  ⟨0x108F, 0x108F, .mc, .mc⟩, ⟨0x1090, 0x1099, .nd, .nd⟩, ⟨0x109A, 0x109C, .mc, .mc⟩,
  ⟨0x109D, 0x109D, .mn, .mn⟩, ⟨0x109E, 0x109F, .so, .so⟩, ⟨0x10A0, 0x10C5, .lu, .lu⟩,
  ⟨0x10C7, 0x10C7, .lu, .lu⟩, ⟨0x10CD, 0x10CD, .lu, .lu⟩, ⟨0x10D0, 0x10FA, .ll, .ll⟩,
  ⟨0x10FB, 0x10FB, .po, .po⟩, ⟨0x10FC, 0x10FC, .lm, .lm⟩, ⟨0x10FD, 0x10FF, .ll, .ll⟩,
  ⟨0x1100, 0x1248, .lo, .lo⟩, ⟨0x124A, 0x124D, .lo, .lo⟩, ⟨0x1250, 0x1256, .lo, .lo⟩,
  ⟨0x1258, 0x1258, .lo, .lo⟩, ⟨0x125A, 0x125D, .lo, .lo⟩, ⟨0x1260, 0x1288, .lo, .lo⟩,
  ⟨0x128A, 0x128D, .lo, .lo⟩, ⟨0x1290, 0x12B0, .lo, .lo⟩, ⟨0x12B2, 0x12B5, .lo, .lo⟩,
  ⟨0x12B8, 0x12BE, .lo, .lo⟩, ⟨0x12C0, 0x12C0, .lo, .lo⟩, ⟨0x12C2, 0x12C5, .lo, .lo⟩,
  ⟨0x12C8, 0x12D6, .lo, .lo⟩, ⟨0x12D8, 0x1310, .lo, .lo⟩, ⟨0x1312, 0x1315, .lo, .lo⟩,
  ⟨0x1318, 0x135A, .lo, .lo⟩, ⟨0x135D, 0x135F, .mn, .mn⟩, ⟨0x1360, 0x1368, .po, .po⟩,
  ⟨0x1369, 0x137C, .no, .no⟩, ⟨0x1380, 0x138F, .lo, .lo⟩, ⟨0x1390, 0x1399, .so, .so⟩,
  ⟨0x13A0, 0x13F5, .lu, .lu⟩, ⟨0x13F8, 0x13FD, .ll, .ll⟩, ⟨0x1400, 0x1400, .pd, .pd⟩,
  ⟨0x1401, 0x166C, .lo, .lo⟩, ⟨0x166D, 0x166D, .so, .so⟩, ⟨0x166E, 0x166E, .po, .po⟩,
  ⟨0x166F, 0x167F, .lo, .lo⟩, ⟨0x1680, 0x1680, .zs, .zs⟩, ⟨0x1681, 0x169A, .lo, .lo⟩,
  ⟨0x169B, 0x169B, .ps, .ps⟩, ⟨0x169C, 0x169C, .pe, .pe⟩, ⟨0x16A0, 0x16EA, .lo, .lo⟩,
  ⟨0x16EB, 0x16ED, .po, .po⟩, ⟨0x16EE, 0x16F0, .nl, .nl⟩, ⟨0x16F1, 0x16F8, .lo, .lo⟩,
  ⟨0x1700, 0x1711, .lo, .lo⟩, ⟨0x1712, 0x1714, .mn, .mn⟩, ⟨0x1715, 0x1715, .mc, .mc⟩,
  ⟨0x171F, 0x1731, .lo, .lo⟩, ⟨0x1732, 0x1733, .mn, .mn⟩, ⟨0x1734, 0x1734, .mc, .mc⟩,
  ⟨0x1735, 0x1736, .po, .po⟩, ⟨0x1740, 0x1751, .lo, .lo⟩, ⟨0x1752, 0x1753, .mn, .mn⟩,
  ⟨0x1760, 0x176C, .lo, .lo⟩, ⟨0x176E, 0x1770, .lo, .lo⟩, ⟨0x1772, 0x1773, .mn, .mn⟩,
  ⟨0x1780, 0x17B3, .lo, .lo⟩, ⟨0x17B4, 0x17B5, .mn, .mn⟩, ⟨0x17B6, 0x17B6, .mc, .mc⟩,
  ⟨0x17B7, 0x17BD, .mn, .mn⟩, ⟨0x17BE, 0x17C5, .mc, .mc⟩, ⟨0x17C6, 0x17C6, .mn, .mn⟩,
  ⟨0x17C7, 0x17C8, .mc, .mc⟩, ⟨0x17C9, 0x17D3, .mn, .mn⟩, ⟨0x17D4, 0x17D6, .po, .po⟩,
  ⟨0x17D7, 0x17D7, .lm, .lm⟩, ⟨0x17D8, 0x17DA, .po, .po⟩, ⟨0x17DB, 0x17DB, .sc, .sc⟩,
  ⟨0x17DC, 0x17DC, .lo, .lo⟩, ⟨0x17DD, 0x17DD, .mn, .mn⟩, ⟨0x17E0, 0x17E9, .nd, .nd⟩,
  ⟨0x17F0, 0x17F9, .no, .no⟩, ⟨0x1800, 0x1805, .po, .po⟩, ⟨0x1806, 0x1806, .pd, .pd⟩,
  ⟨0x1807, 0x180A, .po, .po⟩, ⟨0x180B, 0x180D, .mn, .mn⟩, ⟨0x180E, 0x180E, .cf, .cf⟩,
  ⟨0x180F, 0x180F, .mn, .mn⟩, ⟨0x1810, 0x1819, .nd, .nd⟩, ⟨0x1820, 0x1842, .lo, .lo⟩,
  ⟨0x1843, 0x1843, .lm, .lm⟩, ⟨0x1844, 0x1878, .lo, .lo⟩, ⟨0x1880, 0x1884, .lo, .lo⟩,
  ⟨0x1885, 0x1886, .mn, .mn⟩, ⟨0x1887, 0x18A8, .lo, .lo⟩, ⟨0x18A9, 0x18A9, .mn, .mn⟩,
  ⟨0x18AA, 0x18AA, .lo, .lo⟩, ⟨0x18B0, 0x18F5, .lo, .lo⟩, ⟨0x1900, 0x191E, .lo, .lo⟩,
  ⟨0x1920, 0x1922, .mn, .mn⟩, ⟨0x1923, 0x1926, .mc, .mc⟩, ⟨0x1927, 0x1928, .mn, .mn⟩,
  ⟨0x1929, 0x192B, .mc, .mc⟩, ⟨0x1930, 0x1931, .mc, .mc⟩, ⟨0x1932, 0x1932, .mn, .mn⟩,
  ⟨0x1933, 0x1938, .mc, .mc⟩, ⟨0x1939, 0x193B, .mn, .mn⟩, ⟨0x1940, 0x1940, .so, .so⟩,
  ⟨0x1944, 0x1945, .po, .po⟩, ⟨0x1946, 0x194F, .nd, .nd⟩, ⟨0x1950, 0x196D, .lo, .lo⟩,
  ⟨0x1970, 0x1974, .lo, .lo⟩, ⟨0x1980, 0x19AB, .lo, .lo⟩, ⟨0x19B0, 0x19C9, .lo, .lo⟩,
  ⟨0x19D0, 0x19D9, .nd, .nd⟩, ⟨0x19DA, 0x19DA, .no, .no⟩, ⟨0x19DE, 0x19FF, .so, .so⟩,
  ⟨0x1A00, 0x1A16, .lo, .lo⟩, ⟨0x1A17, 0x1A18, .mn, .mn⟩, ⟨0x1A19, 0x1A1A, .mc, .mc⟩,
  ⟨0x1A1B, 0x1A1B, .mn, .mn⟩, ⟨0x1A1E, 0x1A1F, .po, .po⟩, ⟨0x1A20, 0x1A54, .lo, .lo⟩,
  ⟨0x1A55, 0x1A57, .mc, .mn⟩, ⟨0x1A58, 0x1A5E, .mn, .mn⟩, ⟨0x1A60, 0x1A62, .mn, .mc⟩,
  ⟨0x1A63, 0x1A64, .mc, .mc⟩, ⟨0x1A65, 0x1A6C, .mn, .mn⟩, ⟨0x1A6D, 0x1A72, .mc, .mc⟩,
  ⟨0x1A73, 0x1A7C, .mn, .mn⟩, ⟨0x1A7F, 0x1A7F, .mn, .mn⟩, ⟨0x1A80, 0x1A89, .nd, .nd⟩,
  ⟨0x1A90, 0x1A99, .nd, .nd⟩, ⟨0x1AA0, 0x1AA6, .po, .po⟩, ⟨0x1AA7, 0x1AA7, .lm, .lm⟩,
  ⟨0x1AA8, 0x1AAD, .po, .po⟩, ⟨0x1AB0, 0x1ABD, .mn, .mn⟩, ⟨0x1ABE, 0x1ABE, .me, .me⟩,
  ⟨0x1ABF, 0x1ACE, .mn, .mn⟩, ⟨0x1B00, 0x1B03, .mn, .mn⟩, ⟨0x1B04, 0x1B04, .mc, .mc⟩,
  ⟨0x1B05, 0x1B33, .lo, .lo⟩, ⟨0x1B34, 0x1B34, .mn, .mn⟩, ⟨0x1B35, 0x1B35, .mc, .mc⟩,
  ⟨0x1B36, 0x1B3A, .mn, .mn⟩, ⟨0x1B3B, 0x1B3B, .mc, .mc⟩, ⟨0x1B3C, 0x1B3C, .mn, .mn⟩,
  ⟨0x1B3D, 0x1B41, .mc, .mc⟩, ⟨0x1B42, 0x1B42, .mn, .mn⟩, ⟨0x1B43, 0x1B44, .mc, .mc⟩,
  ⟨0x1B45, 0x1B4C, .lo, .lo⟩, ⟨0x1B50, 0x1B59, .nd, .nd⟩, ⟨0x1B5A, 0x1B60, .po, .po⟩,
  ⟨0x1B61, 0x1B6A, .so, .so⟩, ⟨0x1B6B, 0x1B73, .mn, .mn⟩, ⟨0x1B74, 0x1B7C, .so, .so⟩,
  ⟨0x1B7D, 0x1B7E, .po, .po⟩, ⟨0x1B80, 0x1B81, .mn, .mn⟩, ⟨0x1B82, 0x1B82, .mc, .mc⟩,
  ⟨0x1B83, 0x1BA0, .lo, .lo⟩, ⟨0x1BA1, 0x1BA1, .mc, .mc⟩, ⟨0x1BA2, 0x1BA5, .mn, .mn⟩,
  ⟨0x1BA6, 0x1BA7, .mc, .mc⟩, ⟨0x1BA8, 0x1BA9, .mn, .mn⟩, ⟨0x1BAA, 0x1BAA, .mc, .mc⟩,
  ⟨0x1BAB, 0x1BAD, .mn, .mn⟩, ⟨0x1BAE, 0x1BAF, .lo, .lo⟩, ⟨0x1BB0, 0x1BB9, .nd, .nd⟩,
  ⟨0x1BBA, 0x1BE5, .lo, .lo⟩, ⟨0x1BE6, 0x1BE6, .mn, .mn⟩, ⟨0x1BE7, 0x1BE7, .mc, .mc⟩,
  ⟨0x1BE8, 0x1BE9, .mn, .mn⟩, ⟨0x1BEA, 0x1BEC, .mc, .mc⟩, ⟨0x1BED, 0x1BED, .mn, .mn⟩,
  ⟨0x1BEE, 0x1BEE, .mc, .mc⟩, ⟨0x1BEF, 0x1BF1, .mn, .mn⟩, ⟨0x1BF2, 0x1BF3, .mc, .mc⟩,
  ⟨0x1BFC, 0x1BFF, .po, .po⟩, ⟨0x1C00, 0x1C23, .lo, .lo⟩, ⟨0x1C24, 0x1C2B, .mc, .mc⟩,
  ⟨0x1C2C, 0x1C33, .mn, .mn⟩, ⟨0x1C34, 0x1C35, .mc, .mc⟩, ⟨0x1C36, 0x1C37, .mn, .mn⟩,
  ⟨0x1C3B, 0x1C3F, .po, .po⟩, ⟨0x1C40, 0x1C49, .nd, .nd⟩, ⟨0x1C4D, 0x1C4F, .lo, .lo⟩,
  ⟨0x1C50, 0x1C59, .nd, .nd⟩, ⟨0x1C5A, 0x1C77, .lo, .lo⟩, ⟨0x1C78, 0x1C7D, .lm, .lm⟩,
  ⟨0x1C7E, 0x1C7F, .po, .po⟩, ⟨0x1C80, 0x1C88, .ll, .ll⟩, ⟨0x1C90, 0x1CBA, .lu, .lu⟩,
  ⟨0x1CBD, 0x1CBF, .lu, .lu⟩, ⟨0x1CC0, 0x1CC7, .po, .po⟩, ⟨0x1CD0, 0x1CD2, .mn, .mn⟩,
  ⟨0x1CD3, 0x1CD3, .po, .po⟩, ⟨0x1CD4, 0x1CE0, .mn, .mn⟩, ⟨0x1CE1, 0x1CE1, .mc, .mc⟩,
  ⟨0x1CE2, 0x1CE8, .mn, .mn⟩, ⟨0x1CE9, 0x1CEC, .lo, .lo⟩, ⟨0x1CED, 0x1CED, .mn, .mn⟩,
  ⟨0x1CEE, 0x1CF3, .lo, .lo⟩, ⟨0x1CF4, 0x1CF4, .mn, .mn⟩, ⟨0x1CF5, 0x1CF6, .lo, .lo⟩,
  ⟨0x1CF7, 0x1CF7, .mc, .mc⟩, ⟨0x1CF8, 0x1CF9, .mn, .mn⟩, ⟨0x1CFA, 0x1CFA, .lo, .lo⟩,
  ⟨0x1D00, 0x1D2B, .ll, .ll⟩, ⟨0x1D2C, 0x1D6A, .lm, .lm⟩, ⟨0x1D6B, 0x1D77, .ll, .ll⟩,
  ⟨0x1D78, 0x1D78, .lm, .lm⟩, ⟨0x1D79, 0x1D9A, .ll, .ll⟩, ⟨0x1D9B, 0x1DBF, .lm, .lm⟩,
  ⟨0x1DC0, 0x1DFF, .mn, .mn⟩, ⟨0x1E00, 0x1E94, .lu, .ll⟩, ⟨0x1E95, 0x1E9D, .ll, .ll⟩,
  ⟨0x1E9E, 0x1EFE, .lu, .ll⟩, ⟨0x1EFF, 0x1F07, .ll, .ll⟩, ⟨0x1F08, 0x1F0F, .lu, .lu⟩,
  ⟨0x1F10, 0x1F15, .ll, .ll⟩, ⟨0x1F18, 0x1F1D, .lu, .lu⟩, ⟨0x1F20, 0x1F27, .ll, .ll⟩,
  ⟨0x1F28, 0x1F2F, .lu, .lu⟩, ⟨0x1F30, 0x1F37, .ll, .ll⟩, ⟨0x1F38, 0x1F3F, .lu, .lu⟩,
  ⟨0x1F40, 0x1F45, .ll, .ll⟩, ⟨0x1F48, 0x1F4D, .lu, .lu⟩, ⟨0x1F50, 0x1F57, .ll, .ll⟩,
  ⟨0x1F59, 0x1F59, .lu, .lu⟩, ⟨0x1F5B, 0x1F5B, .lu, .lu⟩, ⟨0x1F5D, 0x1F5D, .lu, .lu⟩,
  ⟨0x1F5F, 0x1F5F, .lu, .lu⟩, ⟨0x1F60, 0x1F67, .ll, .ll⟩, ⟨0x1F68, 0x1F6F, .lu, .lu⟩,
  ⟨0x1F70, 0x1F7D, .ll, .ll⟩, ⟨0x1F80, 0x1F87, .ll, .ll⟩, ⟨0x1F88, 0x1F8F, .lt, .lt⟩,
  ⟨0x1F90, 0x1F97, .ll, .ll⟩, ⟨0x1F98, 0x1F9F, .lt, .lt⟩, ⟨0x1FA0, 0x1FA7, .ll, .ll⟩,
  ⟨0x1FA8, 0x1FAF, .lt, .lt⟩, ⟨0x1FB0, 0x1FB4, .ll, .ll⟩, ⟨0x1FB6, 0x1FB7, .ll, .ll⟩,
  ⟨0x1FB8, 0x1FBB, .lu, .lu⟩, ⟨0x1FBC, 0x1FBC, .lt, .lt⟩, ⟨0x1FBD, 0x1FBD, .sk, .sk⟩,
  ⟨0x1FBE, 0x1FBE, .ll, .ll⟩, ⟨0x1FBF, 0x1FC1, .sk, .sk⟩, ⟨0x1FC2, 0x1FC4, .ll, .ll⟩,
  ⟨0x1FC6, 0x1FC7, .ll, .ll⟩, ⟨0x1FC8, 0x1FCB, .lu, .lu⟩, ⟨0x1FCC, 0x1FCC, .lt, .lt⟩,
  ⟨0x1FCD, 0x1FCF, .sk, .sk⟩, ⟨0x1FD0, 0x1FD3, .ll, .ll⟩, ⟨0x1FD6, 0x1FD7, .ll, .ll⟩,
  ⟨0x1FD8, 0x1FDB, .lu, .lu⟩, ⟨0x1FDD, 0x1FDF, .sk, .sk⟩, ⟨0x1FE0, 0x1FE7, .ll, .ll⟩,
  ⟨0x1FE8, 0x1FEC, .lu, .lu⟩, ⟨0x1FED, 0x1FEF, .sk, .sk⟩, ⟨0x1FF2, 0x1FF4, .ll, .ll⟩,
  ⟨0x1FF6, 0x1FF7, .ll, .ll⟩, ⟨0x1FF8, 0x1FFB, .lu, .lu⟩, ⟨0x1FFC, 0x1FFC, .lt, .lt⟩,
  ⟨0x1FFD, 0x1FFE, .sk, .sk⟩, ⟨0x2000, 0x200A, .zs, .zs⟩, ⟨0x200B, 0x200F, .cf, .cf⟩,
  ⟨0x2010, 0x2015, .pd, .pd⟩, ⟨0x2016, 0x2017, .po, .po⟩, ⟨0x2018, 0x2018, .pi, .pi⟩,
  ⟨0x2019, 0x2019, .pf, .pf⟩, ⟨0x201A, 0x201A, .ps, .ps⟩, ⟨0x201B, 0x201C, .pi, .pi⟩,
  ⟨0x201D, 0x201D, .pf, .pf⟩, ⟨0x201E, 0x201E, .ps, .ps⟩, ⟨0x201F, 0x201F, .pi, .pi⟩,
  ⟨0x2020, 0x2027, .po, .po⟩, ⟨0x2028, 0x2028, .zl, .zl⟩, ⟨0x2029, 0x2029, .zp, .zp⟩,
  ⟨0x202A, 0x202E, .cf, .cf⟩, ⟨0x202F, 0x202F, .zs, .zs⟩, ⟨0x2030, 0x2038, .po, .po⟩,
  ⟨0x2039, 0x2039, .pi, .pi⟩, ⟨0x203A, 0x203A, .pf, .pf⟩, ⟨0x203B, 0x203E, .po, .po⟩,
  ⟨0x203F, 0x2040, .pc, .pc⟩, ⟨0x2041, 0x2043, .po, .po⟩, ⟨0x2044, 0x2044, .sm, .sm⟩,
  ⟨0x2045, 0x2045, .ps, .ps⟩, ⟨0x2046, 0x2046, .pe, .pe⟩, ⟨0x2047, 0x2051, .po, .po⟩,
  ⟨0x2052, 0x2052, .sm, .sm⟩, ⟨0x2053, 0x2053, .po, .po⟩, ⟨0x2054, 0x2054, .pc, .pc⟩,
  ⟨0x2055, 0x205E, .po, .po⟩, ⟨0x205F, 0x205F, .zs, .zs⟩, ⟨0x2060, 0x2064, .cf, .cf⟩,
  ⟨0x2066, 0x206F, .cf, .cf⟩, ⟨0x2070, 0x2070, .no, .no⟩, ⟨0x2071, 0x2071, .lm, .lm⟩,
  ⟨0x2074, 0x2079, .no, .no⟩, ⟨0x207A, 0x207C, .sm, .sm⟩, ⟨0x207D, 0x207D, .ps, .ps⟩,
  ⟨0x207E, 0x207E, .pe, .pe⟩, ⟨0x207F, 0x207F, .lm, .lm⟩, ⟨0x2080, 0x2089, .no, .no⟩,
  ⟨0x208A, 0x208C, .sm, .sm⟩, ⟨0x208D, 0x208D, .ps, .ps⟩, ⟨0x208E, 0x208E, .pe, .pe⟩,
  ⟨0x2090, 0x209C, .lm, .lm⟩, ⟨0x20A0, 0x20C0, .sc, .sc⟩, ⟨0x20D0, 0x20DC, .mn, .mn⟩,
  ⟨0x20DD, 0x20E0, .me, .me⟩, ⟨0x20E1, 0x20E1, .mn, .mn⟩, ⟨0x20E2, 0x20E4, .me, .me⟩,
  ⟨0x20E5, 0x20F0, .mn, .mn⟩, ⟨0x2100, 0x2101, .so, .so⟩, ⟨0x2102, 0x2102, .lu, .lu⟩,
  ⟨0x2103, 0x2106, .so, .so⟩, ⟨0x2107, 0x2107, .lu, .lu⟩, ⟨0x2108, 0x2109, .so, .so⟩,
  ⟨0x210A, 0x210A, .ll, .ll⟩, ⟨0x210B, 0x210D, .lu, .lu⟩, ⟨0x210E, 0x210F, .ll, .ll⟩,
  ⟨0x2110, 0x2112, .lu, .lu⟩, ⟨0x2113, 0x2113, .ll, .ll⟩, ⟨0x2114, 0x2114, .so, .so⟩,
  ⟨0x2115, 0x2115, .lu, .lu⟩, ⟨0x2116, 0x2117, .so, .so⟩, ⟨0x2118, 0x2118, .sm, .sm⟩,
  ⟨0x2119, 0x211D, .lu, .lu⟩, ⟨0x211E, 0x2123, .so, .so⟩, ⟨0x2124, 0x2129, .lu, .so⟩,
  ⟨0x212A, 0x212D, .lu, .lu⟩, ⟨0x212E, 0x212E, .so, .so⟩, ⟨0x212F, 0x212F, .ll, .ll⟩,
  ⟨0x2130, 0x2133, .lu, .lu⟩, ⟨0x2134, 0x2134, .ll, .ll⟩, ⟨0x2135, 0x2138, .lo, .lo⟩,
  ⟨0x2139, 0x2139, .ll, .ll⟩, ⟨0x213A, 0x213B, .so, .so⟩, ⟨0x213C, 0x213D, .ll, .ll⟩,
  ⟨0x213E, 0x213F, .lu, .lu⟩, ⟨0x2140, 0x2144, .sm, .sm⟩, ⟨0x2145, 0x2145, .lu, .lu⟩,
  ⟨0x2146, 0x2149, .ll, .ll⟩, ⟨0x214A, 0x214A, .so, .so⟩, ⟨0x214B, 0x214B, .sm, .sm⟩,
  ⟨0x214C, 0x214D, .so, .so⟩, ⟨0x214E, 0x214E, .ll, .ll⟩, ⟨0x214F, 0x214F, .so, .so⟩,
  ⟨0x2150, 0x215F, .no, .no⟩, ⟨0x2160, 0x2182, .nl, .nl⟩, ⟨0x2183, 0x2183, .lu, .lu⟩,
  ⟨0x2184, 0x2184, .ll, .ll⟩, ⟨0x2185, 0x2188, .nl, .nl⟩, ⟨0x2189, 0x2189, .no, .no⟩,
  ⟨0x218A, 0x218B, .so, .so⟩, ⟨0x2190, 0x2194, .sm, .sm⟩, ⟨0x2195, 0x2199, .so, .so⟩,
  ⟨0x219A, 0x219B, .sm, .sm⟩, ⟨0x219C, 0x219F, .so, .so⟩, ⟨0x21A0, 0x21A0, .sm, .sm⟩,
  ⟨0x21A1, 0x21A2, .so, .so⟩, ⟨0x21A3, 0x21A3, .sm, .sm⟩, ⟨0x21A4, 0x21A5, .so, .so⟩,
  ⟨0x21A6, 0x21A6, .sm, .sm⟩, ⟨0x21A7, 0x21AD, .so, .so⟩, ⟨0x21AE, 0x21AE, .sm, .sm⟩,
  ⟨0x21AF, 0x21CD, .so, .so⟩, ⟨0x21CE, 0x21CF, .sm, .sm⟩, ⟨0x21D0, 0x21D1, .so, .so⟩,
  ⟨0x21D2, 0x21D4, .sm, .so⟩, ⟨0x21D5, 0x21F3, .so, .so⟩, ⟨0x21F4, 0x22FF, .sm, .sm⟩,
  ⟨0x2300, 0x2307, .so, .so⟩, ⟨0x2308, 0x230B, .ps, .pe⟩, ⟨0x230C, 0x231F, .so, .so⟩,
  ⟨0x2320, 0x2321, .sm, .sm⟩, ⟨0x2322, 0x2328, .so, .so⟩, ⟨0x2329, 0x2329, .ps, .ps⟩,
  ⟨0x232A, 0x232A, .pe, .pe⟩, ⟨0x232B, 0x237B, .so, .so⟩, ⟨0x237C, 0x237C, .sm, .sm⟩,
  ⟨0x237D, 0x239A, .so, .so⟩, ⟨0x239B, 0x23B3, .sm, .sm⟩, ⟨0x23B4, 0x23DB, .so, .so⟩,
  ⟨0x23DC, 0x23E1, .sm, .sm⟩, ⟨0x23E2, 0x2426, .so, .so⟩, ⟨0x2440, 0x244A, .so, .so⟩,
  ⟨0x2460, 0x249B, .no, .no⟩, ⟨0x249C, 0x24E9, .so, .so⟩, ⟨0x24EA, 0x24FF, .no, .no⟩,
  ⟨0x2500, 0x25B6, .so, .so⟩, ⟨0x25B7, 0x25B7, .sm, .sm⟩, ⟨0x25B8, 0x25C0, .so, .so⟩,
  ⟨0x25C1, 0x25C1, .sm, .sm⟩, ⟨0x25C2, 0x25F7, .so, .so⟩, ⟨0x25F8, 0x25FF, .sm, .sm⟩,
  ⟨0x2600, 0x266E, .so, .so⟩, ⟨0x266F, 0x266F, .sm, .sm⟩, ⟨0x2670, 0x2767, .so, .so⟩,
  ⟨0x2768, 0x2775, .ps, .pe⟩, ⟨0x2776, 0x2793, .no, .no⟩, ⟨0x2794, 0x27BF, .so, .so⟩,
  ⟨0x27C0, 0x27C4, .sm, .sm⟩, ⟨0x27C5, 0x27C5, .ps, .ps⟩, ⟨0x27C6, 0x27C6, .pe, .pe⟩,
  ⟨0x27C7, 0x27E5, .sm, .sm⟩, ⟨0x27E6, 0x27EF, .ps, .pe⟩, ⟨0x27F0, 0x27FF, .sm, .sm⟩,
  ⟨0x2800, 0x28FF, .so, .so⟩, ⟨0x2900, 0x2982, .sm, .sm⟩, ⟨0x2983, 0x2998, .ps, .pe⟩,
  ⟨0x2999, 0x29D7, .sm, .sm⟩, ⟨0x29D8, 0x29DB, .ps, .pe⟩, ⟨0x29DC, 0x29FB, .sm, .sm⟩,
  ⟨0x29FC, 0x29FC, .ps, .ps⟩, ⟨0x29FD, 0x29FD, .pe, .pe⟩, ⟨0x29FE, 0x2AFF, .sm, .sm⟩,
  ⟨0x2B00, 0x2B2F, .so, .so⟩, ⟨0x2B30, 0x2B44, .sm, .sm⟩, ⟨0x2B45, 0x2B46, .so, .so⟩,
  ⟨0x2B47, 0x2B4C, .sm, .sm⟩, ⟨0x2B4D, 0x2B73, .so, .so⟩, ⟨0x2B76, 0x2B95, .so, .so⟩,
  ⟨0x2B97, 0x2BFF, .so, .so⟩, ⟨0x2C00, 0x2C2F, .lu, .lu⟩, ⟨0x2C30, 0x2C5F, .ll, .ll⟩,
  ⟨0x2C60, 0x2C60, .lu, .lu⟩, ⟨0x2C61, 0x2C61, .ll, .ll⟩, ⟨0x2C62, 0x2C64, .lu, .lu⟩,
  ⟨0x2C65, 0x2C66, .ll, .ll⟩, ⟨0x2C67, 0x2C6C, .lu, .ll⟩, ⟨0x2C6D, 0x2C70, .lu, .lu⟩,
  ⟨0x2C71, 0x2C71, .ll, .ll⟩, ⟨0x2C72, 0x2C72, .lu, .lu⟩, ⟨0x2C73, 0x2C74, .ll, .ll⟩,
  ⟨0x2C75, 0x2C75, .lu, .lu⟩, ⟨0x2C76, 0x2C7B, .ll, .ll⟩, ⟨0x2C7C, 0x2C7D, .lm, .lm⟩,
  ⟨0x2C7E, 0x2C80, .lu, .lu⟩, ⟨0x2C81, 0x2CE2, .ll, .lu⟩, ⟨0x2CE3, 0x2CE4, .ll, .ll⟩,
  ⟨0x2CE5, 0x2CEA, .so, .so⟩, ⟨0x2CEB, 0x2CEE, .lu, .ll⟩, ⟨0x2CEF, 0x2CF1, .mn, .mn⟩,
  ⟨0x2CF2, 0x2CF2, .lu, .lu⟩, ⟨0x2CF3, 0x2CF3, .ll, .ll⟩, ⟨0x2CF9, 0x2CFC, .po, .po⟩,
  ⟨0x2CFD, 0x2CFD, .no, .no⟩, ⟨0x2CFE, 0x2CFF, .po, .po⟩, ⟨0x2D00, 0x2D25, .ll, .ll⟩,
  ⟨0x2D27, 0x2D27, .ll, .ll⟩, ⟨0x2D2D, 0x2D2D, .ll, .ll⟩, ⟨0x2D30, 0x2D67, .lo, .lo⟩,
  ⟨0x2D6F, 0x2D6F, .lm, .lm⟩, ⟨0x2D70, 0x2D70, .po, .po⟩, ⟨0x2D7F, 0x2D7F, .mn, .mn⟩,
  ⟨0x2D80, 0x2D96, .lo, .lo⟩, ⟨0x2DA0, 0x2DA6, .lo, .lo⟩, ⟨0x2DA8, 0x2DAE, .lo, .lo⟩,
  ⟨0x2DB0, 0x2DB6, .lo, .lo⟩, ⟨0x2DB8, 0x2DBE, .lo, .lo⟩, ⟨0x2DC0, 0x2DC6, .lo, .lo⟩,
  ⟨0x2DC8, 0x2DCE, .lo, .lo⟩, ⟨0x2DD0, 0x2DD6, .lo, .lo⟩, ⟨0x2DD8, 0x2DDE, .lo, .lo⟩,
  ⟨0x2DE0, 0x2DFF, .mn, .mn⟩, ⟨0x2E00, 0x2E01, .po, .po⟩, ⟨0x2E02, 0x2E05, .pi, .pf⟩,
  ⟨0x2E06, 0x2E08, .po, .po⟩, ⟨0x2E09, 0x2E09, .pi, .pi⟩, ⟨0x2E0A, 0x2E0A, .pf, .pf⟩,
  ⟨0x2E0B, 0x2E0B, .po, .po⟩, ⟨0x2E0C, 0x2E0C, .pi, .pi⟩, ⟨0x2E0D, 0x2E0D, .pf, .pf⟩,
  ⟨0x2E0E, 0x2E16, .po, .po⟩, ⟨0x2E17, 0x2E17, .pd, .pd⟩, ⟨0x2E18, 0x2E19, .po, .po⟩,
  ⟨0x2E1A, 0x2E1A, .pd, .pd⟩, ⟨0x2E1B, 0x2E1B, .po, .po⟩, ⟨0x2E1C, 0x2E1C, .pi, .pi⟩,
  ⟨0x2E1D, 0x2E1D, .pf, .pf⟩, ⟨0x2E1E, 0x2E1F, .po, .po⟩, ⟨0x2E20, 0x2E20, .pi, .pi⟩,
  ⟨0x2E21, 0x2E21, .pf, .pf⟩, ⟨0x2E22, 0x2E29, .ps, .pe⟩, ⟨0x2E2A, 0x2E2E, .po, .po⟩,
  ⟨0x2E2F, 0x2E2F, .lm, .lm⟩, ⟨0x2E30, 0x2E39, .po, .po⟩, ⟨0x2E3A, 0x2E3B, .pd, .pd⟩,
  ⟨0x2E3C, 0x2E3F, .po, .po⟩, ⟨0x2E40, 0x2E40, .pd, .pd⟩, ⟨0x2E41, 0x2E41, .po, .po⟩,
  ⟨0x2E42, 0x2E42, .ps, .ps⟩, ⟨0x2E43, 0x2E4F, .po, .po⟩, ⟨0x2E50, 0x2E51, .so, .so⟩,
  ⟨0x2E52, 0x2E54, .po, .po⟩, ⟨0x2E55, 0x2E5C, .ps, .pe⟩, ⟨0x2E5D, 0x2E5D, .pd, .pd⟩,
  ⟨0x2E80, 0x2E99, .so, .so⟩, ⟨0x2E9B, 0x2EF3, .so, .so⟩, ⟨0x2F00, 0x2FD5, .so, .so⟩,
  ⟨0x2FF0, 0x2FFB, .so, .so⟩, ⟨0x3000, 0x3000, .zs, .zs⟩, ⟨0x3001, 0x3003, .po, .po⟩,
  ⟨0x3004, 0x3004, .so, .so⟩, ⟨0x3005, 0x3005, .lm, .lm⟩, ⟨0x3006, 0x3006, .lo, .lo⟩,
  ⟨0x3007, 0x3007, .nl, .nl⟩, ⟨0x3008, 0x3011, .ps, .pe⟩, ⟨0x3012, 0x3013, .so, .so⟩,
  ⟨0x3014, 0x301B, .ps, .pe⟩, ⟨0x301C, 0x301C, .pd, .pd⟩, ⟨0x301D, 0x301D, .ps, .ps⟩,
  ⟨0x301E, 0x301F, .pe, .pe⟩, ⟨0x3020, 0x3020, .so, .so⟩, ⟨0x3021, 0x3029, .nl, .nl⟩,
  ⟨0x302A, 0x302D, .mn, .mn⟩, ⟨0x302E, 0x302F, .mc, .mc⟩, ⟨0x3030, 0x3030, .pd, .pd⟩,
  ⟨0x3031, 0x3035, .lm, .lm⟩, ⟨0x3036, 0x3037, .so, .so⟩, ⟨0x3038, 0x303A, .nl, .nl⟩,
  ⟨0x303B, 0x303B, .lm, .lm⟩, ⟨0x303C, 0x303C, .lo, .lo⟩, ⟨0x303D, 0x303D, .po, .po⟩,
  ⟨0x303E, 0x303F, .so, .so⟩, ⟨0x3041, 0x3096, .lo, .lo⟩, ⟨0x3099, 0x309A, .mn, .mn⟩,
  ⟨0x309B, 0x309C, .sk, .sk⟩, ⟨0x309D, 0x309E, .lm, .lm⟩, ⟨0x309F, 0x309F, .lo, .lo⟩,
  ⟨0x30A0, 0x30A0, .pd, .pd⟩, ⟨0x30A1, 0x30FA, .lo, .lo⟩, ⟨0x30FB, 0x30FB, .po, .po⟩,
  ⟨0x30FC, 0x30FE, .lm, .lm⟩, ⟨0x30FF, 0x30FF, .lo, .lo⟩, ⟨0x3105, 0x312F, .lo, .lo⟩,
  ⟨0x3131, 0x318E, .lo, .lo⟩, ⟨0x3190, 0x3191, .so, .so⟩, ⟨0x3192, 0x3195, .no, .no⟩,
  ⟨0x3196, 0x319F, .so, .so⟩, ⟨0x31A0, 0x31BF, .lo, .lo⟩, ⟨0x31C0, 0x31E3, .so, .so⟩,
  ⟨0x31F0, 0x31FF, .lo, .lo⟩, ⟨0x3200, 0x321E, .so, .so⟩, ⟨0x3220, 0x3229, .no, .no⟩,
  ⟨0x322A, 0x3247, .so, .so⟩, ⟨0x3248, 0x324F, .no, .no⟩, ⟨0x3250, 0x3250, .so, .so⟩,
  ⟨0x3251, 0x325F, .no, .no⟩, ⟨0x3260, 0x327F, .so, .so⟩, ⟨0x3280, 0x3289, .no, .no⟩,
  ⟨0x328A, 0x32B0, .so, .so⟩, ⟨0x32B1, 0x32BF, .no, .no⟩, ⟨0x32C0, 0x33FF, .so, .so⟩,
  ⟨0x3400, 0x4DBF, .lo, .lo⟩, ⟨0x4DC0, 0x4DFF, .so, .so⟩, ⟨0x4E00, 0xA014, .lo, .lo⟩,
  ⟨0xA015, 0xA015, .lm, .lm⟩, ⟨0xA016, 0xA48C, .lo, .lo⟩, ⟨0xA490, 0xA4C6, .so, .so⟩,
  ⟨0xA4D0, 0xA4F7, .lo, .lo⟩, ⟨0xA4F8, 0xA4FD, .lm, .lm⟩, ⟨0xA4FE, 0xA4FF, .po, .po⟩,
  ⟨0xA500, 0xA60B, .lo, .lo⟩, ⟨0xA60C, 0xA60C, .lm, .lm⟩, ⟨0xA60D, 0xA60F, .po, .po⟩,
  ⟨0xA610, 0xA61F, .lo, .lo⟩, ⟨0xA620, 0xA629, .nd, .nd⟩, ⟨0xA62A, 0xA62B, .lo, .lo⟩,
  ⟨0xA640, 0xA66D, .lu, .ll⟩, ⟨0xA66E, 0xA66E, .lo, .lo⟩, ⟨0xA66F, 0xA66F, .mn, .mn⟩,
  ⟨0xA670, 0xA672, .me, .me⟩, ⟨0xA673, 0xA673, .po, .po⟩, ⟨0xA674, 0xA67D, .mn, .mn⟩,
  ⟨0xA67E, 0xA67E, .po, .po⟩, ⟨0xA67F, 0xA67F, .lm, .lm⟩, ⟨0xA680, 0xA69B, .lu, .ll⟩,
  ⟨0xA69C, 0xA69D, .lm, .lm⟩, ⟨0xA69E, 0xA69F, .mn, .mn⟩, ⟨0xA6A0, 0xA6E5, .lo, .lo⟩,
  ⟨0xA6E6, 0xA6EF, .nl, .nl⟩, ⟨0xA6F0, 0xA6F1, .mn, .mn⟩, ⟨0xA6F2, 0xA6F7, .po, .po⟩,
  ⟨0xA700, 0xA716, .sk, .sk⟩, ⟨0xA717, 0xA71F, .lm, .lm⟩, ⟨0xA720, 0xA721, .sk, .sk⟩,
  ⟨0xA722, 0xA72E, .lu, .ll⟩, ⟨0xA72F, 0xA731, .ll, .ll⟩, ⟨0xA732, 0xA76F, .lu, .ll⟩,
  ⟨0xA770, 0xA770, .lm, .lm⟩, ⟨0xA771, 0xA778, .ll, .ll⟩, ⟨0xA779, 0xA77C, .lu, .ll⟩,
  ⟨0xA77D, 0xA77E, .lu, .lu⟩, ⟨0xA77F, 0xA787, .ll, .lu⟩, ⟨0xA788, 0xA788, .lm, .lm⟩,
  ⟨0xA789, 0xA78A, .sk, .sk⟩, ⟨0xA78B, 0xA78E, .lu, .ll⟩, ⟨0xA78F, 0xA78F, .lo, .lo⟩,
  ⟨0xA790, 0xA792, .lu, .ll⟩, ⟨0xA793, 0xA795, .ll, .ll⟩, ⟨0xA796, 0xA7A9, .lu, .ll⟩,
  ⟨0xA7AA, 0xA7AE, .lu, .lu⟩, ⟨0xA7AF, 0xA7AF, .ll, .ll⟩, ⟨0xA7B0, 0xA7B4, .lu, .lu⟩,
  ⟨0xA7B5, 0xA7C3, .ll, .lu⟩, ⟨0xA7C4, 0xA7C7, .lu, .lu⟩, ⟨0xA7C8, 0xA7CA, .ll, .lu⟩,
  ⟨0xA7D0, 0xA7D0, .lu, .lu⟩, ⟨0xA7D1, 0xA7D1, .ll, .ll⟩, ⟨0xA7D3, 0xA7D3, .ll, .ll⟩,
  ⟨0xA7D5, 0xA7D9, .ll, .lu⟩, ⟨0xA7F2, 0xA7F4, .lm, .lm⟩, ⟨0xA7F5, 0xA7F5, .lu, .lu⟩,
  ⟨0xA7F6, 0xA7F6, .ll, .ll⟩, ⟨0xA7F7, 0xA7F7, .lo, .lo⟩, ⟨0xA7F8, 0xA7F9, .lm, .lm⟩,
  ⟨0xA7FA, 0xA7FA, .ll, .ll⟩, ⟨0xA7FB, 0xA801, .lo, .lo⟩, ⟨0xA802, 0xA802, .mn, .mn⟩,
  ⟨0xA803, 0xA805, .lo, .lo⟩, ⟨0xA806, 0xA806, .mn, .mn⟩, ⟨0xA807, 0xA80A, .lo, .lo⟩,
  ⟨0xA80B, 0xA80B, .mn, .mn⟩, ⟨0xA80C, 0xA822, .lo, .lo⟩, ⟨0xA823, 0xA824, .mc, .mc⟩,
  ⟨0xA825, 0xA826, .mn, .mn⟩, ⟨0xA827, 0xA827, .mc, .mc⟩, ⟨0xA828, 0xA82B, .so, .so⟩,
  ⟨0xA82C, 0xA82C, .mn, .mn⟩, ⟨0xA830, 0xA835, .no, .no⟩, ⟨0xA836, 0xA837, .so, .so⟩,
  ⟨0xA838, 0xA838, .sc, .sc⟩, ⟨0xA839, 0xA839, .so, .so⟩, ⟨0xA840, 0xA873, .lo, .lo⟩,
  ⟨0xA874, 0xA877, .po, .po⟩, ⟨0xA880, 0xA881, .mc, .mc⟩, ⟨0xA882, 0xA8B3, .lo, .lo⟩,
  ⟨0xA8B4, 0xA8C3, .mc, .mc⟩, ⟨0xA8C4, 0xA8C5, .mn, .mn⟩, ⟨0xA8CE, 0xA8CF, .po, .po⟩,
  ⟨0xA8D0, 0xA8D9, .nd, .nd⟩, ⟨0xA8E0, 0xA8F1, .mn, .mn⟩, ⟨0xA8F2, 0xA8F7, .lo, .lo⟩,
  ⟨0xA8F8, 0xA8FA, .po, .po⟩, ⟨0xA8FB, 0xA8FB, .lo, .lo⟩, ⟨0xA8FC, 0xA8FC, .po, .po⟩,
  ⟨0xA8FD, 0xA8FE, .lo, .lo⟩, ⟨0xA8FF, 0xA8FF, .mn, .mn⟩, ⟨0xA900, 0xA909, .nd, .nd⟩,
  ⟨0xA90A, 0xA925, .lo, .lo⟩, ⟨0xA926, 0xA92D, .mn, .mn⟩, ⟨0xA92E, 0xA92F, .po, .po⟩,
  ⟨0xA930, 0xA946, .lo, .lo⟩, ⟨0xA947, 0xA951, .mn, .mn⟩, ⟨0xA952, 0xA953, .mc, .mc⟩,
  ⟨0xA95F, 0xA95F, .po, .po⟩, ⟨0xA960, 0xA97C, .lo, .lo⟩, ⟨0xA980, 0xA982, .mn, .mn⟩,
  ⟨0xA983, 0xA983, .mc, .mc⟩, ⟨0xA984, 0xA9B2, .lo, .lo⟩, ⟨0xA9B3, 0xA9B3, .mn, .mn⟩,
  ⟨0xA9B4, 0xA9B5, .mc, .mc⟩, ⟨0xA9B6, 0xA9B9, .mn, .mn⟩, ⟨0xA9BA, 0xA9BB, .mc, .mc⟩,
  ⟨0xA9BC, 0xA9BD, .mn, .mn⟩, ⟨0xA9BE, 0xA9C0, .mc, .mc⟩, ⟨0xA9C1, 0xA9CD, .po, .po⟩,
  ⟨0xA9CF, 0xA9CF, .lm, .lm⟩, ⟨0xA9D0, 0xA9D9, .nd, .nd⟩, ⟨0xA9DE, 0xA9DF, .po, .po⟩,
  ⟨0xA9E0, 0xA9E4, .lo, .lo⟩, ⟨0xA9E5, 0xA9E5, .mn, .mn⟩, ⟨0xA9E6, 0xA9E6, .lm, .lm⟩,
  ⟨0xA9E7, 0xA9EF, .lo, .lo⟩, ⟨0xA9F0, 0xA9F9, .nd, .nd⟩, ⟨0xA9FA, 0xA9FE, .lo, .lo⟩,
  ⟨0xAA00, 0xAA28, .lo, .lo⟩, ⟨0xAA29, 0xAA2E, .mn, .mn⟩, ⟨0xAA2F, 0xAA30, .mc, .mc⟩,
  ⟨0xAA31, 0xAA32, .mn, .mn⟩, ⟨0xAA33, 0xAA34, .mc, .mc⟩, ⟨0xAA35, 0xAA36, .mn, .mn⟩,
  ⟨0xAA40, 0xAA42, .lo, .lo⟩, ⟨0xAA43, 0xAA43, .mn, .mn⟩, ⟨0xAA44, 0xAA4B, .lo, .lo⟩,
  ⟨0xAA4C, 0xAA4C, .mn, .mn⟩, ⟨0xAA4D, 0xAA4D, .mc, .mc⟩, ⟨0xAA50, 0xAA59, .nd, .nd⟩,
  ⟨0xAA5C, 0xAA5F, .po, .po⟩, ⟨0xAA60, 0xAA6F, .lo, .lo⟩, ⟨0xAA70, 0xAA70, .lm, .lm⟩,
  ⟨0xAA71, 0xAA76, .lo, .lo⟩, ⟨0xAA77, 0xAA79, .so, .so⟩, ⟨0xAA7A, 0xAA7A, .lo, .lo⟩,
  ⟨0xAA7B, 0xAA7D, .mc, .mn⟩, ⟨0xAA7E, 0xAAAF, .lo, .lo⟩, ⟨0xAAB0, 0xAAB0, .mn, .mn⟩,
  ⟨0xAAB1, 0xAAB1, .lo, .lo⟩, ⟨0xAAB2, 0xAAB4, .mn, .mn⟩, ⟨0xAAB5, 0xAAB6, .lo, .lo⟩,
  ⟨0xAAB7, 0xAAB8, .mn, .mn⟩, ⟨0xAAB9, 0xAABD, .lo, .lo⟩, ⟨0xAABE, 0xAABF, .mn, .mn⟩,
  ⟨0xAAC0, 0xAAC2, .lo, .mn⟩, ⟨0xAADB, 0xAADC, .lo, .lo⟩, ⟨0xAADD, 0xAADD, .lm, .lm⟩,
  ⟨0xAADE, 0xAADF, .po, .po⟩, ⟨0xAAE0, 0xAAEA, .lo, .lo⟩, ⟨0xAAEB, 0xAAEB, .mc, .mc⟩,
  ⟨0xAAEC, 0xAAED, .mn, .mn⟩, ⟨0xAAEE, 0xAAEF, .mc, .mc⟩, ⟨0xAAF0, 0xAAF1, .po, .po⟩,
  ⟨0xAAF2, 0xAAF2, .lo, .lo⟩, ⟨0xAAF3, 0xAAF4, .lm, .lm⟩, ⟨0xAAF5, 0xAAF5, .mc, .mc⟩,
  ⟨0xAAF6, 0xAAF6, .mn, .mn⟩, ⟨0xAB01, 0xAB06, .lo, .lo⟩, ⟨0xAB09, 0xAB0E, .lo, .lo⟩,
  ⟨0xAB11, 0xAB16, .lo, .lo⟩, ⟨0xAB20, 0xAB26, .lo, .lo⟩, ⟨0xAB28, 0xAB2E, .lo, .lo⟩,
  ⟨0xAB30, 0xAB5A, .ll, .ll⟩, ⟨0xAB5B, 0xAB5B, .sk, .sk⟩, ⟨0xAB5C, 0xAB5F, .lm, .lm⟩,
  ⟨0xAB60, 0xAB68, .ll, .ll⟩, ⟨0xAB69, 0xAB69, .lm, .lm⟩, ⟨0xAB6A, 0xAB6B, .sk, .sk⟩,
  ⟨0xAB70, 0xABBF, .ll, .ll⟩, ⟨0xABC0, 0xABE2, .lo, .lo⟩, ⟨0xABE3, 0xABE4, .mc, .mc⟩,
  ⟨0xABE5, 0xABE5, .mn, .mn⟩, ⟨0xABE6, 0xABE7, .mc, .mc⟩, ⟨0xABE8, 0xABE8, .mn, .mn⟩,
  ⟨0xABE9, 0xABEA, .mc, .mc⟩, ⟨0xABEB, 0xABEB, .po, .po⟩, ⟨0xABEC, 0xABEC, .mc, .mc⟩,
  ⟨0xABED, 0xABED, .mn, .mn⟩, ⟨0xABF0, 0xABF9, .nd, .nd⟩, ⟨0xAC00, 0xD7A3, .lo, .lo⟩,
  ⟨0xD7B0, 0xD7C6, .lo, .lo⟩, ⟨0xD7CB, 0xD7FB, .lo, .lo⟩, ⟨0xD800, 0xDFFF, .cs, .cs⟩,
  ⟨0xE000, 0xF8FF, .co, .co⟩, ⟨0xF900, 0xFA6D, .lo, .lo⟩, ⟨0xFA70, 0xFAD9, .lo, .lo⟩,
  ⟨0xFB00, 0xFB06, .ll, .ll⟩, ⟨0xFB13, 0xFB17, .ll, .ll⟩, ⟨0xFB1D, 0xFB1D, .lo, .lo⟩,
  ⟨0xFB1E, 0xFB1E, .mn, .mn⟩, ⟨0xFB1F, 0xFB28, .lo, .lo⟩, ⟨0xFB29, 0xFB29, .sm, .sm⟩,
  ⟨0xFB2A, 0xFB36, .lo, .lo⟩, ⟨0xFB38, 0xFB3C, .lo, .lo⟩, ⟨0xFB3E, 0xFB3E, .lo, .lo⟩,
  ⟨0xFB40, 0xFB41, .lo, .lo⟩, ⟨0xFB43, 0xFB44, .lo, .lo⟩, ⟨0xFB46, 0xFBB1, .lo, .lo⟩,
  ⟨0xFBB2, 0xFBC2, .sk, .sk⟩, ⟨0xFBD3, 0xFD3D, .lo, .lo⟩, ⟨0xFD3E, 0xFD3E, .pe, .pe⟩,
  ⟨0xFD3F, 0xFD3F, .ps, .ps⟩, ⟨0xFD40, 0xFD4F, .so, .so⟩, ⟨0xFD50, 0xFD8F, .lo, .lo⟩,
  ⟨0xFD92, 0xFDC7, .lo, .lo⟩, ⟨0xFDCF, 0xFDCF, .so, .so⟩, ⟨0xFDF0, 0xFDFB, .lo, .lo⟩,
  ⟨0xFDFC, 0xFDFC, .sc, .sc⟩, ⟨0xFDFD, 0xFDFF, .so, .so⟩, ⟨0xFE00, 0xFE0F, .mn, .mn⟩,
  ⟨0xFE10, 0xFE16, .po, .po⟩, ⟨0xFE17, 0xFE17, .ps, .ps⟩, ⟨0xFE18, 0xFE18, .pe, .pe⟩,
  ⟨0xFE19, 0xFE19, .po, .po⟩, ⟨0xFE20, 0xFE2F, .mn, .mn⟩, ⟨0xFE30, 0xFE30, .po, .po⟩,
  ⟨0xFE31, 0xFE32, .pd, .pd⟩, ⟨0xFE33, 0xFE34, .pc, .pc⟩, ⟨0xFE35, 0xFE44, .ps, .pe⟩,
  ⟨0xFE45, 0xFE46, .po, .po⟩, ⟨0xFE47, 0xFE47, .ps, .ps⟩, ⟨0xFE48, 0xFE48, .pe, .pe⟩,
  ⟨0xFE49, 0xFE4C, .po, .po⟩, ⟨0xFE4D, 0xFE4F, .pc, .pc⟩, ⟨0xFE50, 0xFE52, .po, .po⟩,
  ⟨0xFE54, 0xFE57, .po, .po⟩, ⟨0xFE58, 0xFE58, .pd, .pd⟩, ⟨0xFE59, 0xFE5E, .ps, .pe⟩,
  ⟨0xFE5F, 0xFE61, .po, .po⟩, ⟨0xFE62, 0xFE62, .sm, .sm⟩, ⟨0xFE63, 0xFE63, .pd, .pd⟩,
  ⟨0xFE64, 0xFE66, .sm, .sm⟩, ⟨0xFE68, 0xFE68, .po, .po⟩, ⟨0xFE69, 0xFE69, .sc, .sc⟩,
  ⟨0xFE6A, 0xFE6B, .po, .po⟩, ⟨0xFE70, 0xFE74, .lo, .lo⟩, ⟨0xFE76, 0xFEFC, .lo, .lo⟩,
  ⟨0xFEFF, 0xFEFF, .cf, .cf⟩, ⟨0xFF01, 0xFF03, .po, .po⟩, ⟨0xFF04, 0xFF04, .sc, .sc⟩,
  ⟨0xFF05, 0xFF07, .po, .po⟩, ⟨0xFF08, 0xFF08, .ps, .ps⟩, ⟨0xFF09, 0xFF09, .pe, .pe⟩,
  ⟨0xFF0A, 0xFF0C, .po, .sm⟩, ⟨0xFF0D, 0xFF0D, .pd, .pd⟩, ⟨0xFF0E, 0xFF0F, .po, .po⟩,
  ⟨0xFF10, 0xFF19, .nd, .nd⟩, ⟨0xFF1A, 0xFF1B, .po, .po⟩, ⟨0xFF1C, 0xFF1E, .sm, .sm⟩,
  ⟨0xFF1F, 0xFF20, .po, .po⟩, ⟨0xFF21, 0xFF3A, .lu, .lu⟩, ⟨0xFF3B, 0xFF3B, .ps, .ps⟩,
  ⟨0xFF3C, 0xFF3C, .po, .po⟩, ⟨0xFF3D, 0xFF3D, .pe, .pe⟩, ⟨0xFF3E, 0xFF40, .sk, .pc⟩,
  ⟨0xFF41, 0xFF5A, .ll, .ll⟩, ⟨0xFF5B, 0xFF5B, .ps, .ps⟩, ⟨0xFF5C, 0xFF5E, .sm, .pe⟩,
  ⟨0xFF5F, 0xFF5F, .ps, .ps⟩, ⟨0xFF60, 0xFF60, .pe, .pe⟩, ⟨0xFF61, 0xFF61, .po, .po⟩,
  ⟨0xFF62, 0xFF62, .ps, .ps⟩, ⟨0xFF63, 0xFF63, .pe, .pe⟩, ⟨0xFF64, 0xFF65, .po, .po⟩,
  ⟨0xFF66, 0xFF6F, .lo, .lo⟩, ⟨0xFF70, 0xFF70, .lm, .lm⟩, ⟨0xFF71, 0xFF9D, .lo, .lo⟩,
  ⟨0xFF9E, 0xFF9F, .lm, .lm⟩, ⟨0xFFA0, 0xFFBE, .lo, .lo⟩, ⟨0xFFC2, 0xFFC7, .lo, .lo⟩,
  ⟨0xFFCA, 0xFFCF, .lo, .lo⟩, ⟨0xFFD2, 0xFFD7, .lo, .lo⟩, ⟨0xFFDA, 0xFFDC, .lo, .lo⟩,
  ⟨0xFFE0, 0xFFE1, .sc, .sc⟩, ⟨0xFFE2, 0xFFE2, .sm, .sm⟩, ⟨0xFFE3, 0xFFE3, .sk, .sk⟩,
  ⟨0xFFE4, 0xFFE4, .so, .so⟩, ⟨0xFFE5, 0xFFE6, .sc, .sc⟩, ⟨0xFFE8, 0xFFE8, .so, .so⟩,
  ⟨0xFFE9, 0xFFEC, .sm, .sm⟩, ⟨0xFFED, 0xFFEE, .so, .so⟩, ⟨0xFFF9, 0xFFFB, .cf, .cf⟩,
  ⟨0xFFFC, 0xFFFD, .so, .so⟩, ⟨0x10000, 0x1000B, .lo, .lo⟩, ⟨0x1000D, 0x10026, .lo, .lo⟩,
  ⟨0x10028, 0x1003A, .lo, .lo⟩, ⟨0x1003C, 0x1003D, .lo, .lo⟩, ⟨0x1003F, 0x1004D, .lo, .lo⟩,
  ⟨0x10050, 0x1005D, .lo, .lo⟩, ⟨0x10080, 0x100FA, .lo, .lo⟩, ⟨0x10100, 0x10102, .po, .po⟩,
  ⟨0x10107, 0x10133, .no, .no⟩, ⟨0x10137, 0x1013F, .so, .so⟩, ⟨0x10140, 0x10174, .nl, .nl⟩,
  ⟨0x10175, 0x10178, .no, .no⟩, ⟨0x10179, 0x10189, .so, .so⟩, ⟨0x1018A, 0x1018B, .no, .no⟩,
  ⟨0x1018C, 0x1018E, .so, .so⟩, ⟨0x10190, 0x1019C, .so, .so⟩, ⟨0x101A0, 0x101A0, .so, .so⟩,
  ⟨0x101D0, 0x101FC, .so, .so⟩, ⟨0x101FD, 0x101FD, .mn, .mn⟩, ⟨0x10280, 0x1029C, .lo, .lo⟩,
  ⟨0x102A0, 0x102D0, .lo, .lo⟩, ⟨0x102E0, 0x102E0, .mn, .mn⟩, ⟨0x102E1, 0x102FB, .no, .no⟩,
  ⟨0x10300, 0x1031F, .lo, .lo⟩, ⟨0x10320, 0x10323, .no, .no⟩, ⟨0x1032D, 0x10340, .lo, .lo⟩,
  ⟨0x10341, 0x10341, .nl, .nl⟩, ⟨0x10342, 0x10349, .lo, .lo⟩, ⟨0x1034A, 0x1034A, .nl, .nl⟩,
  ⟨0x10350, 0x10375, .lo, .lo⟩, ⟨0x10376, 0x1037A, .mn, .mn⟩, ⟨0x10380, 0x1039D, .lo, .lo⟩,
  ⟨0x1039F, 0x1039F, .po, .po⟩, ⟨0x103A0, 0x103C3, .lo, .lo⟩, ⟨0x103C8, 0x103CF, .lo, .lo⟩,
  ⟨0x103D0, 0x103D0, .po, .po⟩, ⟨0x103D1, 0x103D5, .nl, .nl⟩, ⟨0x10400, 0x10427, .lu, .lu⟩,
  ⟨0x10428, 0x1044F, .ll, .ll⟩, ⟨0x10450, 0x1049D, .lo, .lo⟩, ⟨0x104A0, 0x104A9, .nd, .nd⟩,
  ⟨0x104B0, 0x104D3, .lu, .lu⟩, ⟨0x104D8, 0x104FB, .ll, .ll⟩, ⟨0x10500, 0x10527, .lo, .lo⟩,
  ⟨0x10530, 0x10563, .lo, .lo⟩, ⟨0x1056F, 0x1056F, .po, .po⟩, ⟨0x10570, 0x1057A, .lu, .lu⟩,
  ⟨0x1057C, 0x1058A, .lu, .lu⟩, ⟨0x1058C, 0x10592, .lu, .lu⟩, ⟨0x10594, 0x10595, .lu, .lu⟩,
  ⟨0x10597, 0x105A1, .ll, .ll⟩, ⟨0x105A3, 0x105B1, .ll, .ll⟩, ⟨0x105B3, 0x105B9, .ll, .ll⟩,
  ⟨0x105BB, 0x105BC, .ll, .ll⟩, ⟨0x10600, 0x10736, .lo, .lo⟩, ⟨0x10740, 0x10755, .lo, .lo⟩,
  ⟨0x10760, 0x10767, .lo, .lo⟩, ⟨0x10780, 0x10785, .lm, .lm⟩, ⟨0x10787, 0x107B0, .lm, .lm⟩,
  ⟨0x107B2, 0x107BA, .lm, .lm⟩, ⟨0x10800, 0x10805, .lo, .lo⟩, ⟨0x10808, 0x10808, .lo, .lo⟩,
  ⟨0x1080A, 0x10835, .lo, .lo⟩, ⟨0x10837, 0x10838, .lo, .lo⟩, ⟨0x1083C, 0x1083C, .lo, .lo⟩,
  ⟨0x1083F, 0x10855, .lo, .lo⟩, ⟨0x10857, 0x10857, .po, .po⟩, ⟨0x10858, 0x1085F, .no, .no⟩,
  ⟨0x10860, 0x10876, .lo, .lo⟩, ⟨0x10877, 0x10878, .so, .so⟩, ⟨0x10879, 0x1087F, .no, .no⟩,
  ⟨0x10880, 0x1089E, .lo, .lo⟩, ⟨0x108A7, 0x108AF, .no, .no⟩, ⟨0x108E0, 0x108F2, .lo, .lo⟩,
  ⟨0x108F4, 0x108F5, .lo, .lo⟩, ⟨0x108FB, 0x108FF, .no, .no⟩, ⟨0x10900, 0x10915, .lo, .lo⟩,
  ⟨0x10916, 0x1091B, .no, .no⟩, ⟨0x1091F, 0x1091F, .po, .po⟩, ⟨0x10920, 0x10939, .lo, .lo⟩,
  ⟨0x1093F, 0x1093F, .po, .po⟩, ⟨0x10980, 0x109B7, .lo, .lo⟩, ⟨0x109BC, 0x109BD, .no, .no⟩,
  ⟨0x109BE, 0x109BF, .lo, .lo⟩, ⟨0x109C0, 0x109CF, .no, .no⟩, ⟨0x109D2, 0x109FF, .no, .no⟩,
  ⟨0x10A00, 0x10A00, .lo, .lo⟩, ⟨0x10A01, 0x10A03, .mn, .mn⟩, ⟨0x10A05, 0x10A06, .mn, .mn⟩,
  ⟨0x10A0C, 0x10A0F, .mn, .mn⟩, ⟨0x10A10, 0x10A13, .lo, .lo⟩, ⟨0x10A15, 0x10A17, .lo, .lo⟩,
  ⟨0x10A19, 0x10A35, .lo, .lo⟩, ⟨0x10A38, 0x10A3A, .mn, .mn⟩, ⟨0x10A3F, 0x10A3F, .mn, .mn⟩,
  ⟨0x10A40, 0x10A48, .no, .no⟩, ⟨0x10A50, 0x10A58, .po, .po⟩, ⟨0x10A60, 0x10A7C, .lo, .lo⟩,
  ⟨0x10A7D, 0x10A7E, .no, .no⟩, ⟨0x10A7F, 0x10A7F, .po, .po⟩, ⟨0x10A80, 0x10A9C, .lo, .lo⟩,
  ⟨0x10A9D, 0x10A9F, .no, .no⟩, ⟨0x10AC0, 0x10AC7, .lo, .lo⟩, ⟨0x10AC8, 0x10AC8, .so, .so⟩,
  ⟨0x10AC9, 0x10AE4, .lo, .lo⟩, ⟨0x10AE5, 0x10AE6, .mn, .mn⟩, ⟨0x10AEB, 0x10AEF, .no, .no⟩,
  ⟨0x10AF0, 0x10AF6, .po, .po⟩, ⟨0x10B00, 0x10B35, .lo, .lo⟩, ⟨0x10B39, 0x10B3F, .po, .po⟩,
  ⟨0x10B40, 0x10B55, .lo, .lo⟩, ⟨0x10B58, 0x10B5F, .no, .no⟩, ⟨0x10B60, 0x10B72, .lo, .lo⟩,
  ⟨0x10B78, 0x10B7F, .no, .no⟩, ⟨0x10B80, 0x10B91, .lo, .lo⟩, ⟨0x10B99, 0x10B9C, .po, .po⟩,
  ⟨0x10BA9, 0x10BAF, .no, .no⟩, ⟨0x10C00, 0x10C48, .lo, .lo⟩, ⟨0x10C80, 0x10CB2, .lu, .lu⟩,
  ⟨0x10CC0, 0x10CF2, .ll, .ll⟩, ⟨0x10CFA, 0x10CFF, .no, .no⟩, ⟨0x10D00, 0x10D23, .lo, .lo⟩,
  ⟨0x10D24, 0x10D27, .mn, .mn⟩, ⟨0x10D30, 0x10D39, .nd, .nd⟩, ⟨0x10E60, 0x10E7E, .no, .no⟩,
  ⟨0x10E80, 0x10EA9, .lo, .lo⟩, ⟨0x10EAB, 0x10EAC, .mn, .mn⟩, ⟨0x10EAD, 0x10EAD, .pd, .pd⟩,
  ⟨0x10EB0, 0x10EB1, .lo, .lo⟩, ⟨0x10EFD, 0x10EFF, .mn, .mn⟩, ⟨0x10F00, 0x10F1C, .lo, .lo⟩,
  ⟨0x10F1D, 0x10F26, .no, .no⟩, ⟨0x10F27, 0x10F27, .lo, .lo⟩, ⟨0x10F30, 0x10F45, .lo, .lo⟩,
  ⟨0x10F46, 0x10F50, .mn, .mn⟩, ⟨0x10F51, 0x10F54, .no, .no⟩, ⟨0x10F55, 0x10F59, .po, .po⟩,
  ⟨0x10F70, 0x10F81, .lo, .lo⟩, ⟨0x10F82, 0x10F85, .mn, .mn⟩, ⟨0x10F86, 0x10F89, .po, .po⟩,
  ⟨0x10FB0, 0x10FC4, .lo, .lo⟩, ⟨0x10FC5, 0x10FCB, .no, .no⟩, ⟨0x10FE0, 0x10FF6, .lo, .lo⟩,
  ⟨0x11000, 0x11002, .mc, .mn⟩, ⟨0x11003, 0x11037, .lo, .lo⟩, ⟨0x11038, 0x11046, .mn, .mn⟩,
  ⟨0x11047, 0x1104D, .po, .po⟩, ⟨0x11052, 0x11065, .no, .no⟩, ⟨0x11066, 0x1106F, .nd, .nd⟩,
  ⟨0x11070, 0x11070, .mn, .mn⟩, ⟨0x11071, 0x11072, .lo, .lo⟩, ⟨0x11073, 0x11074, .mn, .mn⟩,
  ⟨0x11075, 0x11075, .lo, .lo⟩, ⟨0x1107F, 0x11081, .mn, .mn⟩, ⟨0x11082, 0x11082, .mc, .mc⟩,
  ⟨0x11083, 0x110AF, .lo, .lo⟩, ⟨0x110B0, 0x110B2, .mc, .mc⟩, ⟨0x110B3, 0x110B6, .mn, .mn⟩,
  ⟨0x110B7, 0x110B8, .mc, .mc⟩, ⟨0x110B9, 0x110BA, .mn, .mn⟩, ⟨0x110BB, 0x110BC, .po, .po⟩,
  ⟨0x110BD, 0x110BD, .cf, .cf⟩, ⟨0x110BE, 0x110C1, .po, .po⟩, ⟨0x110C2, 0x110C2, .mn, .mn⟩,
  ⟨0x110CD, 0x110CD, .cf, .cf⟩, ⟨0x110D0, 0x110E8, .lo, .lo⟩, ⟨0x110F0, 0x110F9, .nd, .nd⟩,
  ⟨0x11100, 0x11102, .mn, .mn⟩, ⟨0x11103, 0x11126, .lo, .lo⟩, ⟨0x11127, 0x1112B, .mn, .mn⟩,
  ⟨0x1112C, 0x1112C, .mc, .mc⟩, ⟨0x1112D, 0x11134, .mn, .mn⟩, ⟨0x11136, 0x1113F, .nd, .nd⟩,
  ⟨0x11140, 0x11143, .po, .po⟩, ⟨0x11144, 0x11144, .lo, .lo⟩, ⟨0x11145, 0x11146, .mc, .mc⟩,
  ⟨0x11147, 0x11147, .lo, .lo⟩, ⟨0x11150, 0x11172, .lo, .lo⟩, ⟨0x11173, 0x11173, .mn, .mn⟩,
  ⟨0x11174, 0x11175, .po, .po⟩, ⟨0x11176, 0x11176, .lo, .lo⟩, ⟨0x11180, 0x11181, .mn, .mn⟩,
  ⟨0x11182, 0x11182, .mc, .mc⟩, ⟨0x11183, 0x111B2, .lo, .lo⟩, ⟨0x111B3, 0x111B5, .mc, .mc⟩,
  ⟨0x111B6, 0x111BE, .mn, .mn⟩, ⟨0x111BF, 0x111C0, .mc, .mc⟩, ⟨0x111C1, 0x111C4, .lo, .lo⟩,
  ⟨0x111C5, 0x111C8, .po, .po⟩, ⟨0x111C9, 0x111CC, .mn, .mn⟩, ⟨0x111CD, 0x111CD, .po, .po⟩,
  ⟨0x111CE, 0x111CE, .mc, .mc⟩, ⟨0x111CF, 0x111CF, .mn, .mn⟩, ⟨0x111D0, 0x111D9, .nd, .nd⟩,
  ⟨0x111DA, 0x111DC, .lo, .po⟩, ⟨0x111DD, 0x111DF, .po, .po⟩, ⟨0x111E1, 0x111F4, .no, .no⟩,
  ⟨0x11200, 0x11211, .lo, .lo⟩, ⟨0x11213, 0x1122B, .lo, .lo⟩, ⟨0x1122C, 0x1122E, .mc, .mc⟩,
  ⟨0x1122F, 0x11231, .mn, .mn⟩, ⟨0x11232, 0x11233, .mc, .mc⟩, ⟨0x11234, 0x11234, .mn, .mn⟩,
  ⟨0x11235, 0x11235, .mc, .mc⟩, ⟨0x11236, 0x11237, .mn, .mn⟩, ⟨0x11238, 0x1123D, .po, .po⟩,
  ⟨0x1123E, 0x1123E, .mn, .mn⟩, ⟨0x1123F, 0x11240, .lo, .lo⟩, ⟨0x11241, 0x11241, .mn, .mn⟩,
  ⟨0x11280, 0x11286, .lo, .lo⟩, ⟨0x11288, 0x11288, .lo, .lo⟩, ⟨0x1128A, 0x1128D, .lo, .lo⟩,
  ⟨0x1128F, 0x1129D, .lo, .lo⟩, ⟨0x1129F, 0x112A8, .lo, .lo⟩, ⟨0x112A9, 0x112A9, .po, .po⟩,
  ⟨0x112B0, 0x112DE, .lo, .lo⟩, ⟨0x112DF, 0x112DF, .mn, .mn⟩, ⟨0x112E0, 0x112E2, .mc, .mc⟩,
  ⟨0x112E3, 0x112EA, .mn, .mn⟩, ⟨0x112F0, 0x112F9, .nd, .nd⟩, ⟨0x11300, 0x11301, .mn, .mn⟩,
  ⟨0x11302, 0x11303, .mc, .mc⟩, ⟨0x11305, 0x1130C, .lo, .lo⟩, ⟨0x1130F, 0x11310, .lo, .lo⟩,
  ⟨0x11313, 0x11328, .lo, .lo⟩, ⟨0x1132A, 0x11330, .lo, .lo⟩, ⟨0x11332, 0x11333, .lo, .lo⟩,
  ⟨0x11335, 0x11339, .lo, .lo⟩, ⟨0x1133B, 0x1133C, .mn, .mn⟩, ⟨0x1133D, 0x1133D, .lo, .lo⟩,
  ⟨0x1133E, 0x1133F, .mc, .mc⟩, ⟨0x11340, 0x11340, .mn, .mn⟩, ⟨0x11341, 0x11344, .mc, .mc⟩,
  ⟨0x11347, 0x11348, .mc, .mc⟩, ⟨0x1134B, 0x1134D, .mc, .mc⟩, ⟨0x11350, 0x11350, .lo, .lo⟩,
  ⟨0x11357, 0x11357, .mc, .mc⟩, ⟨0x1135D, 0x11361, .lo, .lo⟩, ⟨0x11362, 0x11363, .mc, .mc⟩,
  ⟨0x11366, 0x1136C, .mn, .mn⟩, ⟨0x11370, 0x11374, .mn, .mn⟩, ⟨0x11400, 0x11434, .lo, .lo⟩,
  ⟨0x11435, 0x11437, .mc, .mc⟩, ⟨0x11438, 0x1143F, .mn, .mn⟩, ⟨0x11440, 0x11441, .mc, .mc⟩,
  ⟨0x11442, 0x11444, .mn, .mn⟩, ⟨0x11445, 0x11445, .mc, .mc⟩, ⟨0x11446, 0x11446, .mn, .mn⟩,
  ⟨0x11447, 0x1144A, .lo, .lo⟩, ⟨0x1144B, 0x1144F, .po, .po⟩, ⟨0x11450, 0x11459, .nd, .nd⟩,
  ⟨0x1145A, 0x1145B, .po, .po⟩, ⟨0x1145D, 0x1145D, .po, .po⟩, ⟨0x1145E, 0x1145E, .mn, .mn⟩,
  ⟨0x1145F, 0x11461, .lo, .lo⟩, ⟨0x11480, 0x114AF, .lo, .lo⟩, ⟨0x114B0, 0x114B2, .mc, .mc⟩,
  ⟨0x114B3, 0x114B8, .mn, .mn⟩, ⟨0x114B9, 0x114B9, .mc, .mc⟩, ⟨0x114BA, 0x114BA, .mn, .mn⟩,
  ⟨0x114BB, 0x114BE, .mc, .mc⟩, ⟨0x114BF, 0x114C0, .mn, .mn⟩, ⟨0x114C1, 0x114C1, .mc, .mc⟩,
  ⟨0x114C2, 0x114C3, .mn, .mn⟩, ⟨0x114C4, 0x114C5, .lo, .lo⟩, ⟨0x114C6, 0x114C6, .po, .po⟩,
  ⟨0x114C7, 0x114C7, .lo, .lo⟩, ⟨0x114D0, 0x114D9, .nd, .nd⟩, ⟨0x11580, 0x115AE, .lo, .lo⟩,
  ⟨0x115AF, 0x115B1, .mc, .mc⟩, ⟨0x115B2, 0x115B5, .mn, .mn⟩, ⟨0x115B8, 0x115BB, .mc, .mc⟩,
  ⟨0x115BC, 0x115BD, .mn, .mn⟩, ⟨0x115BE, 0x115BE, .mc, .mc⟩, ⟨0x115BF, 0x115C0, .mn, .mn⟩,
  ⟨0x115C1, 0x115D7, .po, .po⟩, ⟨0x115D8, 0x115DB, .lo, .lo⟩, ⟨0x115DC, 0x115DD, .mn, .mn⟩,
  ⟨0x11600, 0x1162F, .lo, .lo⟩, ⟨0x11630, 0x11632, .mc, .mc⟩, ⟨0x11633, 0x1163A, .mn, .mn⟩,
  ⟨0x1163B, 0x1163C, .mc, .mc⟩, ⟨0x1163D, 0x1163D, .mn, .mn⟩, ⟨0x1163E, 0x1163E, .mc, .mc⟩,
  ⟨0x1163F, 0x11640, .mn, .mn⟩, ⟨0x11641, 0x11643, .po, .po⟩, ⟨0x11644, 0x11644, .lo, .lo⟩,
  ⟨0x11650, 0x11659, .nd, .nd⟩, ⟨0x11660, 0x1166C, .po, .po⟩, ⟨0x11680, 0x116AA, .lo, .lo⟩,
  ⟨0x116AB, 0x116AD, .mn, .mc⟩, ⟨0x116AE, 0x116AF, .mc, .mc⟩, ⟨0x116B0, 0x116B5, .mn, .mn⟩,
  ⟨0x116B6, 0x116B6, .mc, .mc⟩, ⟨0x116B7, 0x116B7, .mn, .mn⟩, ⟨0x116B8, 0x116B8, .lo, .lo⟩,
  ⟨0x116B9, 0x116B9, .po, .po⟩, ⟨0x116C0, 0x116C9, .nd, .nd⟩, ⟨0x11700, 0x1171A, .lo, .lo⟩,
  ⟨0x1171D, 0x1171F, .mn, .mn⟩, ⟨0x11720, 0x11721, .mc, .mc⟩, ⟨0x11722, 0x11725, .mn, .mn⟩,
  ⟨0x11726, 0x11726, .mc, .mc⟩, ⟨0x11727, 0x1172B, .mn, .mn⟩, ⟨0x11730, 0x11739, .nd, .nd⟩,
  ⟨0x1173A, 0x1173B, .no, .no⟩, ⟨0x1173C, 0x1173E, .po, .po⟩, ⟨0x1173F, 0x1173F, .so, .so⟩,
  ⟨0x11740, 0x11746, .lo, .lo⟩, ⟨0x11800, 0x1182B, .lo, .lo⟩, ⟨0x1182C, 0x1182E, .mc, .mc⟩,
  ⟨0x1182F, 0x11837, .mn, .mn⟩, ⟨0x11838, 0x11838, .mc, .mc⟩, ⟨0x11839, 0x1183A, .mn, .mn⟩,
  ⟨0x1183B, 0x1183B, .po, .po⟩, ⟨0x118A0, 0x118BF, .lu, .lu⟩, ⟨0x118C0, 0x118DF, .ll, .ll⟩,
  ⟨0x118E0, 0x118E9, .nd, .nd⟩, ⟨0x118EA, 0x118F2, .no, .no⟩, ⟨0x118FF, 0x11906, .lo, .lo⟩,
  ⟨0x11909, 0x11909, .lo, .lo⟩, ⟨0x1190C, 0x11913, .lo, .lo⟩, ⟨0x11915, 0x11916, .lo, .lo⟩,
  ⟨0x11918, 0x1192F, .lo, .lo⟩, ⟨0x11930, 0x11935, .mc, .mc⟩, ⟨0x11937, 0x11938, .mc, .mc⟩,
  ⟨0x1193B, 0x1193C, .mn, .mn⟩, ⟨0x1193D, 0x1193D, .mc, .mc⟩, ⟨0x1193E, 0x1193E, .mn, .mn⟩,
  ⟨0x1193F, 0x11942, .lo, .mc⟩, ⟨0x11943, 0x11943, .mn, .mn⟩, ⟨0x11944, 0x11946, .po, .po⟩,
  ⟨0x11950, 0x11959, .nd, .nd⟩, ⟨0x119A0, 0x119A7, .lo, .lo⟩, ⟨0x119AA, 0x119D0, .lo, .lo⟩,
  ⟨0x119D1, 0x119D3, .mc, .mc⟩, ⟨0x119D4, 0x119D7, .mn, .mn⟩, ⟨0x119DA, 0x119DB, .mn, .mn⟩,
  ⟨0x119DC, 0x119DF, .mc, .mc⟩, ⟨0x119E0, 0x119E0, .mn, .mn⟩, ⟨0x119E1, 0x119E3, .lo, .po⟩,
  ⟨0x119E4, 0x119E4, .mc, .mc⟩, ⟨0x11A00, 0x11A00, .lo, .lo⟩, ⟨0x11A01, 0x11A0A, .mn, .mn⟩,
  ⟨0x11A0B, 0x11A32, .lo, .lo⟩, ⟨0x11A33, 0x11A38, .mn, .mn⟩, ⟨0x11A39, 0x11A39, .mc, .mc⟩,
  ⟨0x11A3A, 0x11A3A, .lo, .lo⟩, ⟨0x11A3B, 0x11A3E, .mn, .mn⟩, ⟨0x11A3F, 0x11A46, .po, .po⟩,
  ⟨0x11A47, 0x11A47, .mn, .mn⟩, ⟨0x11A50, 0x11A50, .lo, .lo⟩, ⟨0x11A51, 0x11A56, .mn, .mn⟩,
  ⟨0x11A57, 0x11A58, .mc, .mc⟩, ⟨0x11A59, 0x11A5B, .mn, .mn⟩, ⟨0x11A5C, 0x11A89, .lo, .lo⟩,
  ⟨0x11A8A, 0x11A96, .mn, .mn⟩, ⟨0x11A97, 0x11A97, .mc, .mc⟩, ⟨0x11A98, 0x11A99, .mn, .mn⟩,
  ⟨0x11A9A, 0x11A9C, .po, .po⟩, ⟨0x11A9D, 0x11A9D, .lo, .lo⟩, ⟨0x11A9E, 0x11AA2, .po, .po⟩,
  ⟨0x11AB0, 0x11AF8, .lo, .lo⟩, ⟨0x11B00, 0x11B09, .po, .po⟩, ⟨0x11C00, 0x11C08, .lo, .lo⟩,
  ⟨0x11C0A, 0x11C2E, .lo, .lo⟩, ⟨0x11C2F, 0x11C2F, .mc, .mc⟩, ⟨0x11C30, 0x11C36, .mn, .mn⟩,
  ⟨0x11C38, 0x11C3D, .mn, .mn⟩, ⟨0x11C3E, 0x11C3E, .mc, .mc⟩, ⟨0x11C3F, 0x11C3F, .mn, .mn⟩,
  ⟨0x11C40, 0x11C40, .lo, .lo⟩, ⟨0x11C41, 0x11C45, .po, .po⟩, ⟨0x11C50, 0x11C59, .nd, .nd⟩,
  ⟨0x11C5A, 0x11C6C, .no, .no⟩, ⟨0x11C70, 0x11C71, .po, .po⟩, ⟨0x11C72, 0x11C8F, .lo, .lo⟩,
  ⟨0x11C92, 0x11CA7, .mn, .mn⟩, ⟨0x11CA9, 0x11CA9, .mc, .mc⟩, ⟨0x11CAA, 0x11CB0, .mn, .mn⟩,
  ⟨0x11CB1, 0x11CB1, .mc, .mc⟩, ⟨0x11CB2, 0x11CB3, .mn, .mn⟩, ⟨0x11CB4, 0x11CB4, .mc, .mc⟩,
  ⟨0x11CB5, 0x11CB6, .mn, .mn⟩, ⟨0x11D00, 0x11D06, .lo, .lo⟩, ⟨0x11D08, 0x11D09, .lo, .lo⟩,
  ⟨0x11D0B, 0x11D30, .lo, .lo⟩, ⟨0x11D31, 0x11D36, .mn, .mn⟩, ⟨0x11D3A, 0x11D3A, .mn, .mn⟩,
  ⟨0x11D3C, 0x11D3D, .mn, .mn⟩, ⟨0x11D3F, 0x11D45, .mn, .mn⟩, ⟨0x11D46, 0x11D46, .lo, .lo⟩,
  ⟨0x11D47, 0x11D47, .mn, .mn⟩, ⟨0x11D50, 0x11D59, .nd, .nd⟩, ⟨0x11D60, 0x11D65, .lo, .lo⟩,
  ⟨0x11D67, 0x11D68, .lo, .lo⟩, ⟨0x11D6A, 0x11D89, .lo, .lo⟩, ⟨0x11D8A, 0x11D8E, .mc, .mc⟩,
  ⟨0x11D90, 0x11D91, .mn, .mn⟩, ⟨0x11D93, 0x11D94, .mc, .mc⟩, ⟨0x11D95, 0x11D97, .mn, .mc⟩,
  ⟨0x11D98, 0x11D98, .lo, .lo⟩, ⟨0x11DA0, 0x11DA9, .nd, .nd⟩, ⟨0x11EE0, 0x11EF2, .lo, .lo⟩,
  ⟨0x11EF3, 0x11EF4, .mn, .mn⟩, ⟨0x11EF5, 0x11EF6, .mc, .mc⟩, ⟨0x11EF7, 0x11EF8, .po, .po⟩,
  ⟨0x11F00, 0x11F01, .mn, .mn⟩, ⟨0x11F02, 0x11F02, .lo, .lo⟩, ⟨0x11F03, 0x11F03, .mc, .mc⟩,
  ⟨0x11F04, 0x11F10, .lo, .lo⟩, ⟨0x11F12, 0x11F33, .lo, .lo⟩, ⟨0x11F34, 0x11F35, .mc, .mc⟩,
  ⟨0x11F36, 0x11F3A, .mn, .mn⟩, ⟨0x11F3E, 0x11F3F, .mc, .mc⟩, ⟨0x11F40, 0x11F42, .mn, .mc⟩,
  ⟨0x11F43, 0x11F4F, .po, .po⟩, ⟨0x11F50, 0x11F59, .nd, .nd⟩, ⟨0x11FB0, 0x11FB0, .lo, .lo⟩,
  ⟨0x11FC0, 0x11FD4, .no, .no⟩, ⟨0x11FD5, 0x11FDC, .so, .so⟩, ⟨0x11FDD, 0x11FE0, .sc, .sc⟩,
  ⟨0x11FE1, 0x11FF1, .so, .so⟩, ⟨0x11FFF, 0x11FFF, .po, .po⟩, ⟨0x12000, 0x12399, .lo, .lo⟩,
  ⟨0x12400, 0x1246E, .nl, .nl⟩, ⟨0x12470, 0x12474, .po, .po⟩, ⟨0x12480, 0x12543, .lo, .lo⟩,
  ⟨0x12F90, 0x12FF0, .lo, .lo⟩, ⟨0x12FF1, 0x12FF2, .po, .po⟩, ⟨0x13000, 0x1342F, .lo, .lo⟩,
  ⟨0x13430, 0x1343F, .cf, .cf⟩, ⟨0x13440, 0x13440, .mn, .mn⟩, ⟨0x13441, 0x13446, .lo, .lo⟩,
  ⟨0x13447, 0x13455, .mn, .mn⟩, ⟨0x14400, 0x14646, .lo, .lo⟩, ⟨0x16800, 0x16A38, .lo, .lo⟩,
  ⟨0x16A40, 0x16A5E, .lo, .lo⟩, ⟨0x16A60, 0x16A69, .nd, .nd⟩, ⟨0x16A6E, 0x16A6F, .po, .po⟩,
  ⟨0x16A70, 0x16ABE, .lo, .lo⟩, ⟨0x16AC0, 0x16AC9, .nd, .nd⟩, ⟨0x16AD0, 0x16AED, .lo, .lo⟩,
  ⟨0x16AF0, 0x16AF4, .mn, .mn⟩, ⟨0x16AF5, 0x16AF5, .po, .po⟩, ⟨0x16B00, 0x16B2F, .lo, .lo⟩,
  ⟨0x16B30, 0x16B36, .mn, .mn⟩, ⟨0x16B37, 0x16B3B, .po, .po⟩, ⟨0x16B3C, 0x16B3F, .so, .so⟩,
  ⟨0x16B40, 0x16B43, .lm, .lm⟩, ⟨0x16B44, 0x16B44, .po, .po⟩, ⟨0x16B45, 0x16B45, .so, .so⟩,
  ⟨0x16B50, 0x16B59, .nd, .nd⟩, ⟨0x16B5B, 0x16B61, .no, .no⟩, ⟨0x16B63, 0x16B77, .lo, .lo⟩,
  ⟨0x16B7D, 0x16B8F, .lo, .lo⟩, ⟨0x16E40, 0x16E5F, .lu, .lu⟩, ⟨0x16E60, 0x16E7F, .ll, .ll⟩,
  ⟨0x16E80, 0x16E96, .no, .no⟩, ⟨0x16E97, 0x16E9A, .po, .po⟩, ⟨0x16F00, 0x16F4A, .lo, .lo⟩,
  ⟨0x16F4F, 0x16F4F, .mn, .mn⟩, ⟨0x16F50, 0x16F50, .lo, .lo⟩, ⟨0x16F51, 0x16F87, .mc, .mc⟩,
  ⟨0x16F8F, 0x16F92, .mn, .mn⟩, ⟨0x16F93, 0x16F9F, .lm, .lm⟩, ⟨0x16FE0, 0x16FE1, .lm, .lm⟩,
  ⟨0x16FE2, 0x16FE2, .po, .po⟩, ⟨0x16FE3, 0x16FE3, .lm, .lm⟩, ⟨0x16FE4, 0x16FE4, .mn, .mn⟩,
  ⟨0x16FF0, 0x16FF1, .mc, .mc⟩, ⟨0x17000, 0x187F7, .lo, .lo⟩, ⟨0x18800, 0x18CD5, .lo, .lo⟩,
  ⟨0x18D00, 0x18D08, .lo, .lo⟩, ⟨0x1AFF0, 0x1AFF3, .lm, .lm⟩, ⟨0x1AFF5, 0x1AFFB, .lm, .lm⟩,
  ⟨0x1AFFD, 0x1AFFE, .lm, .lm⟩, ⟨0x1B000, 0x1B122, .lo, .lo⟩, ⟨0x1B132, 0x1B132, .lo, .lo⟩,
  ⟨0x1B150, 0x1B152, .lo, .lo⟩, ⟨0x1B155, 0x1B155, .lo, .lo⟩, ⟨0x1B164, 0x1B167, .lo, .lo⟩,
  ⟨0x1B170, 0x1B2FB, .lo, .lo⟩, ⟨0x1BC00, 0x1BC6A, .lo, .lo⟩, ⟨0x1BC70, 0x1BC7C, .lo, .lo⟩,
  ⟨0x1BC80, 0x1BC88, .lo, .lo⟩, ⟨0x1BC90, 0x1BC99, .lo, .lo⟩, ⟨0x1BC9C, 0x1BC9C, .so, .so⟩,
  ⟨0x1BC9D, 0x1BC9E, .mn, .mn⟩, ⟨0x1BC9F, 0x1BC9F, .po, .po⟩, ⟨0x1BCA0, 0x1BCA3, .cf, .cf⟩,
  ⟨0x1CF00, 0x1CF2D, .mn, .mn⟩, ⟨0x1CF30, 0x1CF46, .mn, .mn⟩, ⟨0x1CF50, 0x1CFC3, .so, .so⟩,
  ⟨0x1D000, 0x1D0F5, .so, .so⟩, ⟨0x1D100, 0x1D126, .so, .so⟩, ⟨0x1D129, 0x1D164, .so, .so⟩,
  ⟨0x1D165, 0x1D166, .mc, .mc⟩, ⟨0x1D167, 0x1D169, .mn, .mn⟩, ⟨0x1D16A, 0x1D16C, .so, .so⟩,
  ⟨0x1D16D, 0x1D172, .mc, .mc⟩, ⟨0x1D173, 0x1D17A, .cf, .cf⟩, ⟨0x1D17B, 0x1D182, .mn, .mn⟩,
  ⟨0x1D183, 0x1D184, .so, .so⟩, ⟨0x1D185, 0x1D18B, .mn, .mn⟩, ⟨0x1D18C, 0x1D1A9, .so, .so⟩,
  ⟨0x1D1AA, 0x1D1AD, .mn, .mn⟩, ⟨0x1D1AE, 0x1D1EA, .so, .so⟩, ⟨0x1D200, 0x1D241, .so, .so⟩,
  ⟨0x1D242, 0x1D244, .mn, .mn⟩, ⟨0x1D245, 0x1D245, .so, .so⟩, ⟨0x1D2C0, 0x1D2D3, .no, .no⟩,
  ⟨0x1D2E0, 0x1D2F3, .no, .no⟩, ⟨0x1D300, 0x1D356, .so, .so⟩, ⟨0x1D360, 0x1D378, .no, .no⟩,
  ⟨0x1D400, 0x1D419, .lu, .lu⟩, ⟨0x1D41A, 0x1D433, .ll, .ll⟩, ⟨0x1D434, 0x1D44D, .lu, .lu⟩,
  ⟨0x1D44E, 0x1D454, .ll, .ll⟩, ⟨0x1D456, 0x1D467, .ll, .ll⟩, ⟨0x1D468, 0x1D481, .lu, .lu⟩,
  ⟨0x1D482, 0x1D49B, .ll, .ll⟩, ⟨0x1D49C, 0x1D49C, .lu, .lu⟩, ⟨0x1D49E, 0x1D49F, .lu, .lu⟩,
  ⟨0x1D4A2, 0x1D4A2, .lu, .lu⟩, ⟨0x1D4A5, 0x1D4A6, .lu, .lu⟩, ⟨0x1D4A9, 0x1D4AC, .lu, .lu⟩,
  ⟨0x1D4AE, 0x1D4B5, .lu, .lu⟩, ⟨0x1D4B6, 0x1D4B9, .ll, .ll⟩, ⟨0x1D4BB, 0x1D4BB, .ll, .ll⟩,
  ⟨0x1D4BD, 0x1D4C3, .ll, .ll⟩, ⟨0x1D4C5, 0x1D4CF, .ll, .ll⟩, ⟨0x1D4D0, 0x1D4E9, .lu, .lu⟩,
  ⟨0x1D4EA, 0x1D503, .ll, .ll⟩, ⟨0x1D504, 0x1D505, .lu, .lu⟩, ⟨0x1D507, 0x1D50A, .lu, .lu⟩,
  ⟨0x1D50D, 0x1D514, .lu, .lu⟩, ⟨0x1D516, 0x1D51C, .lu, .lu⟩, ⟨0x1D51E, 0x1D537, .ll, .ll⟩,
  ⟨0x1D538, 0x1D539, .lu, .lu⟩, ⟨0x1D53B, 0x1D53E, .lu, .lu⟩, ⟨0x1D540, 0x1D544, .lu, .lu⟩,
  ⟨0x1D546, 0x1D546, .lu, .lu⟩, ⟨0x1D54A, 0x1D550, .lu, .lu⟩, ⟨0x1D552, 0x1D56B, .ll, .ll⟩,
  ⟨0x1D56C, 0x1D585, .lu, .lu⟩, ⟨0x1D586, 0x1D59F, .ll, .ll⟩, ⟨0x1D5A0, 0x1D5B9, .lu, .lu⟩,
  ⟨0x1D5BA, 0x1D5D3, .ll, .ll⟩, ⟨0x1D5D4, 0x1D5ED, .lu, .lu⟩, ⟨0x1D5EE, 0x1D607, .ll, .ll⟩,
  ⟨0x1D608, 0x1D621, .lu, .lu⟩, ⟨0x1D622, 0x1D63B, .ll, .ll⟩, ⟨0x1D63C, 0x1D655, .lu, .lu⟩,
  ⟨0x1D656, 0x1D66F, .ll, .ll⟩, ⟨0x1D670, 0x1D689, .lu, .lu⟩, ⟨0x1D68A, 0x1D6A5, .ll, .ll⟩,
  ⟨0x1D6A8, 0x1D6C0, .lu, .lu⟩, ⟨0x1D6C1, 0x1D6C1, .sm, .sm⟩, ⟨0x1D6C2, 0x1D6DA, .ll, .ll⟩,
  ⟨0x1D6DB, 0x1D6DB, .sm, .sm⟩, ⟨0x1D6DC, 0x1D6E1, .ll, .ll⟩, ⟨0x1D6E2, 0x1D6FA, .lu, .lu⟩,
  ⟨0x1D6FB, 0x1D6FB, .sm, .sm⟩, ⟨0x1D6FC, 0x1D714, .ll, .ll⟩, ⟨0x1D715, 0x1D715, .sm, .sm⟩,
  ⟨0x1D716, 0x1D71B, .ll, .ll⟩, ⟨0x1D71C, 0x1D734, .lu, .lu⟩, ⟨0x1D735, 0x1D735, .sm, .sm⟩,
  ⟨0x1D736, 0x1D74E, .ll, .ll⟩, ⟨0x1D74F, 0x1D74F, .sm, .sm⟩, ⟨0x1D750, 0x1D755, .ll, .ll⟩,
  ⟨0x1D756, 0x1D76E, .lu, .lu⟩, ⟨0x1D76F, 0x1D76F, .sm, .sm⟩, ⟨0x1D770, 0x1D788, .ll, .ll⟩,
  ⟨0x1D789, 0x1D789, .sm, .sm⟩, ⟨0x1D78A, 0x1D78F, .ll, .ll⟩, ⟨0x1D790, 0x1D7A8, .lu, .lu⟩,
  ⟨0x1D7A9, 0x1D7A9, .sm, .sm⟩, ⟨0x1D7AA, 0x1D7C2, .ll, .ll⟩, ⟨0x1D7C3, 0x1D7C3, .sm, .sm⟩,
  ⟨0x1D7C4, 0x1D7C9, .ll, .ll⟩, ⟨0x1D7CA, 0x1D7CA, .lu, .lu⟩, ⟨0x1D7CB, 0x1D7CB, .ll, .ll⟩,
  ⟨0x1D7CE, 0x1D7FF, .nd, .nd⟩, ⟨0x1D800, 0x1D9FF, .so, .so⟩, ⟨0x1DA00, 0x1DA36, .mn, .mn⟩,
  ⟨0x1DA37, 0x1DA3A, .so, .so⟩, ⟨0x1DA3B, 0x1DA6C, .mn, .mn⟩, ⟨0x1DA6D, 0x1DA74, .so, .so⟩,
  ⟨0x1DA75, 0x1DA75, .mn, .mn⟩, ⟨0x1DA76, 0x1DA83, .so, .so⟩, ⟨0x1DA84, 0x1DA84, .mn, .mn⟩,
  ⟨0x1DA85, 0x1DA86, .so, .so⟩, ⟨0x1DA87, 0x1DA8B, .po, .po⟩, ⟨0x1DA9B, 0x1DA9F, .mn, .mn⟩,
  ⟨0x1DAA1, 0x1DAAF, .mn, .mn⟩, ⟨0x1DF00, 0x1DF09, .ll, .ll⟩, ⟨0x1DF0A, 0x1DF0A, .lo, .lo⟩,
  ⟨0x1DF0B, 0x1DF1E, .ll, .ll⟩, ⟨0x1DF25, 0x1DF2A, .ll, .ll⟩, ⟨0x1E000, 0x1E006, .mn, .mn⟩,
  ⟨0x1E008, 0x1E018, .mn, .mn⟩, ⟨0x1E01B, 0x1E021, .mn, .mn⟩, ⟨0x1E023, 0x1E024, .mn, .mn⟩,
  ⟨0x1E026, 0x1E02A, .mn, .mn⟩, ⟨0x1E030, 0x1E06D, .lm, .lm⟩, ⟨0x1E08F, 0x1E08F, .mn, .mn⟩,
  ⟨0x1E100, 0x1E12C, .lo, .lo⟩, ⟨0x1E130, 0x1E136, .mn, .mn⟩, ⟨0x1E137, 0x1E13D, .lm, .lm⟩,
  ⟨0x1E140, 0x1E149, .nd, .nd⟩, ⟨0x1E14E, 0x1E14E, .lo, .lo⟩, ⟨0x1E14F, 0x1E14F, .so, .so⟩,
  ⟨0x1E290, 0x1E2AD, .lo, .lo⟩, ⟨0x1E2AE, 0x1E2AE, .mn, .mn⟩, ⟨0x1E2C0, 0x1E2EB, .lo, .lo⟩,
  ⟨0x1E2EC, 0x1E2EF, .mn, .mn⟩, ⟨0x1E2F0, 0x1E2F9, .nd, .nd⟩, ⟨0x1E2FF, 0x1E2FF, .sc, .sc⟩,
  ⟨0x1E4D0, 0x1E4EA, .lo, .lo⟩, ⟨0x1E4EB, 0x1E4EB, .lm, .lm⟩, ⟨0x1E4EC, 0x1E4EF, .mn, .mn⟩,
  ⟨0x1E4F0, 0x1E4F9, .nd, .nd⟩, ⟨0x1E7E0, 0x1E7E6, .lo, .lo⟩, ⟨0x1E7E8, 0x1E7EB, .lo, .lo⟩,
  ⟨0x1E7ED, 0x1E7EE, .lo, .lo⟩, ⟨0x1E7F0, 0x1E7FE, .lo, .lo⟩, ⟨0x1E800, 0x1E8C4, .lo, .lo⟩,
  ⟨0x1E8C7, 0x1E8CF, .no, .no⟩, ⟨0x1E8D0, 0x1E8D6, .mn, .mn⟩, ⟨0x1E900, 0x1E921, .lu, .lu⟩,
  ⟨0x1E922, 0x1E943, .ll, .ll⟩, ⟨0x1E944, 0x1E94A, .mn, .mn⟩, ⟨0x1E94B, 0x1E94B, .lm, .lm⟩,
  ⟨0x1E950, 0x1E959, .nd, .nd⟩, ⟨0x1E95E, 0x1E95F, .po, .po⟩, ⟨0x1EC71, 0x1ECAB, .no, .no⟩,
  ⟨0x1ECAC, 0x1ECAC, .so, .so⟩, ⟨0x1ECAD, 0x1ECAF, .no, .no⟩, ⟨0x1ECB0, 0x1ECB0, .sc, .sc⟩,
  ⟨0x1ECB1, 0x1ECB4, .no, .no⟩, ⟨0x1ED01, 0x1ED2D, .no, .no⟩, ⟨0x1ED2E, 0x1ED2E, .so, .so⟩,
  ⟨0x1ED2F, 0x1ED3D, .no, .no⟩, ⟨0x1EE00, 0x1EE03, .lo, .lo⟩, ⟨0x1EE05, 0x1EE1F, .lo, .lo⟩,
  ⟨0x1EE21, 0x1EE22, .lo, .lo⟩, ⟨0x1EE24, 0x1EE24, .lo, .lo⟩, ⟨0x1EE27, 0x1EE27, .lo, .lo⟩,
  ⟨0x1EE29, 0x1EE32, .lo, .lo⟩, ⟨0x1EE34, 0x1EE37, .lo, .lo⟩, ⟨0x1EE39, 0x1EE39, .lo, .lo⟩,
  ⟨0x1EE3B, 0x1EE3B, .lo, .lo⟩, ⟨0x1EE42, 0x1EE42, .lo, .lo⟩, ⟨0x1EE47, 0x1EE47, .lo, .lo⟩,
  ⟨0x1EE49, 0x1EE49, .lo, .lo⟩, ⟨0x1EE4B, 0x1EE4B, .lo, .lo⟩, ⟨0x1EE4D, 0x1EE4F, .lo, .lo⟩,
  ⟨0x1EE51, 0x1EE52, .lo, .lo⟩, ⟨0x1EE54, 0x1EE54, .lo, .lo⟩, ⟨0x1EE57, 0x1EE57, .lo, .lo⟩,
  ⟨0x1EE59, 0x1EE59, .lo, .lo⟩, ⟨0x1EE5B, 0x1EE5B, .lo, .lo⟩, ⟨0x1EE5D, 0x1EE5D, .lo, .lo⟩,
  ⟨0x1EE5F, 0x1EE5F, .lo, .lo⟩, ⟨0x1EE61, 0x1EE62, .lo, .lo⟩, ⟨0x1EE64, 0x1EE64, .lo, .lo⟩,
  ⟨0x1EE67, 0x1EE6A, .lo, .lo⟩, ⟨0x1EE6C, 0x1EE72, .lo, .lo⟩, ⟨0x1EE74, 0x1EE77, .lo, .lo⟩,
  ⟨0x1EE79, 0x1EE7C, .lo, .lo⟩, ⟨0x1EE7E, 0x1EE7E, .lo, .lo⟩, ⟨0x1EE80, 0x1EE89, .lo, .lo⟩,
  ⟨0x1EE8B, 0x1EE9B, .lo, .lo⟩, ⟨0x1EEA1, 0x1EEA3, .lo, .lo⟩, ⟨0x1EEA5, 0x1EEA9, .lo, .lo⟩,
  ⟨0x1EEAB, 0x1EEBB, .lo, .lo⟩, ⟨0x1EEF0, 0x1EEF1, .sm, .sm⟩, ⟨0x1F000, 0x1F02B, .so, .so⟩,
  ⟨0x1F030, 0x1F093, .so, .so⟩, ⟨0x1F0A0, 0x1F0AE, .so, .so⟩, ⟨0x1F0B1, 0x1F0BF, .so, .so⟩,
  ⟨0x1F0C1, 0x1F0CF, .so, .so⟩, ⟨0x1F0D1, 0x1F0F5, .so, .so⟩, ⟨0x1F100, 0x1F10C, .no, .no⟩,
  ⟨0x1F10D, 0x1F1AD, .so, .so⟩, ⟨0x1F1E6, 0x1F202, .so, .so⟩, ⟨0x1F210, 0x1F23B, .so, .so⟩,
  ⟨0x1F240, 0x1F248, .so, .so⟩, ⟨0x1F250, 0x1F251, .so, .so⟩, ⟨0x1F260, 0x1F265, .so, .so⟩,
  ⟨0x1F300, 0x1F3FA, .so, .so⟩, ⟨0x1F3FB, 0x1F3FF, .sk, .sk⟩, ⟨0x1F400, 0x1F6D7, .so, .so⟩,
  ⟨0x1F6DC, 0x1F6EC, .so, .so⟩, ⟨0x1F6F0, 0x1F6FC, .so, .so⟩, ⟨0x1F700, 0x1F776, .so, .so⟩,
  ⟨0x1F77B, 0x1F7D9, .so, .so⟩, ⟨0x1F7E0, 0x1F7EB, .so, .so⟩, ⟨0x1F7F0, 0x1F7F0, .so, .so⟩,
  ⟨0x1F800, 0x1F80B, .so, .so⟩, ⟨0x1F810, 0x1F847, .so, .so⟩, ⟨0x1F850, 0x1F859, .so, .so⟩,
  ⟨0x1F860, 0x1F887, .so, .so⟩, ⟨0x1F890, 0x1F8AD, .so, .so⟩, ⟨0x1F8B0, 0x1F8B1, .so, .so⟩,
  ⟨0x1F900, 0x1FA53, .so, .so⟩, ⟨0x1FA60, 0x1FA6D, .so, .so⟩, ⟨0x1FA70, 0x1FA7C, .so, .so⟩,
  ⟨0x1FA80, 0x1FA88, .so, .so⟩, ⟨0x1FA90, 0x1FABD, .so, .so⟩, ⟨0x1FABF, 0x1FAC5, .so, .so⟩,
  ⟨0x1FACE, 0x1FADB, .so, .so⟩, ⟨0x1FAE0, 0x1FAE8, .so, .so⟩, ⟨0x1FAF0, 0x1FAF8, .so, .so⟩,
  ⟨0x1FB00, 0x1FB92, .so, .so⟩, ⟨0x1FB94, 0x1FBCA, .so, .so⟩, ⟨0x1FBF0, 0x1FBF9, .nd, .nd⟩,
  ⟨0x20000, 0x2A6DF, .lo, .lo⟩, ⟨0x2A700, 0x2B739, .lo, .lo⟩, ⟨0x2B740, 0x2B81D, .lo, .lo⟩,
  ⟨0x2B820, 0x2CEA1, .lo, .lo⟩, ⟨0x2CEB0, 0x2EBE0, .lo, .lo⟩, ⟨0x2F800, 0x2FA1D, .lo, .lo⟩,
  ⟨0x30000, 0x3134A, .lo, .lo⟩, ⟨0x31350, 0x323AF, .lo, .lo⟩, ⟨0xE0001, 0xE0001, .cf, .cf⟩,
  ⟨0xE0020, 0xE007F, .cf, .cf⟩, ⟨0xE0100, 0xE01EF, .mn, .mn⟩, ⟨0xF0000, 0xFFFFD, .co, .co⟩,
  ⟨0x100000, 0x10FFFD, .co, .co⟩]

/-- The general category of a character. -/
def category (c : Char) : Category := categoryIn categoryRuns c.toNat

/-- A letter of any kind. -/
def Category.isLetter : Category → Bool
  | .lu | .ll | .lt | .lm | .lo => true
  | _ => false

/-- A combining mark of any kind. -/
def Category.isMark : Category → Bool
  | .mn | .mc | .me => true
  | _ => false

/-- A number of any kind. -/
def Category.isNumber : Category → Bool
  | .nd | .nl | .no => true
  | _ => false

end Packrat.Unicode
