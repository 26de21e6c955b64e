/-!
Contract: which characters differ in case only.

Simple case folding sorts the characters into orbits. Almost all orbits are a pair, and the
pairs come in runs of equal distance; the orbits of three or four are listed. `CaseOrbit.of`
gives the whole orbit of a character, itself included.
-/

namespace EarleyChart.Unicode

/-- Pairs `lower, lower + distance` for `count` values of `lower`, each `stride` after the last. -/
structure CaseRun where
  first : Nat
  count : Nat
  stride : Nat
  distance : Nat
deriving Repr

namespace CaseOrbit

/-- The orbits that are pairs. -/
def pairs : List CaseRun :=
  [⟨0x41, 10, 1, 32⟩, ⟨0x4c, 7, 1, 32⟩, ⟨0x54, 7, 1, 32⟩, ⟨0xc0, 5, 1, 32⟩, ⟨0xc6, 17, 1, 32⟩,
   ⟨0xd8, 7, 1, 32⟩, ⟨0xdf, 1, 1, 7615⟩, ⟨0xff, 1, 1, 121⟩, ⟨0x100, 24, 2, 1⟩,
   ⟨0x132, 3, 2, 1⟩, ⟨0x139, 8, 2, 1⟩, ⟨0x14a, 23, 2, 1⟩, ⟨0x179, 3, 2, 1⟩, ⟨0x180, 1, 1, 195⟩,
   ⟨0x181, 1, 1, 210⟩, ⟨0x182, 2, 2, 1⟩, ⟨0x186, 1, 1, 206⟩, ⟨0x187, 1, 1, 1⟩,
   ⟨0x189, 2, 1, 205⟩, ⟨0x18b, 1, 1, 1⟩, ⟨0x18e, 1, 1, 79⟩, ⟨0x18f, 1, 1, 202⟩,
   ⟨0x190, 1, 1, 203⟩, ⟨0x191, 1, 1, 1⟩, ⟨0x193, 1, 1, 205⟩, ⟨0x194, 1, 1, 207⟩,
   ⟨0x195, 1, 1, 97⟩, ⟨0x196, 1, 1, 211⟩, ⟨0x197, 1, 1, 209⟩, ⟨0x198, 1, 1, 1⟩,
   ⟨0x19a, 1, 1, 163⟩, ⟨0x19b, 1, 1, 42561⟩, ⟨0x19c, 1, 1, 211⟩, ⟨0x19d, 1, 1, 213⟩,
   ⟨0x19e, 1, 1, 130⟩, ⟨0x19f, 1, 1, 214⟩, ⟨0x1a0, 3, 2, 1⟩, ⟨0x1a6, 1, 1, 218⟩,
   ⟨0x1a7, 1, 1, 1⟩, ⟨0x1a9, 1, 1, 218⟩, ⟨0x1ac, 1, 1, 1⟩, ⟨0x1ae, 1, 1, 218⟩,
   ⟨0x1af, 1, 1, 1⟩, ⟨0x1b1, 2, 1, 217⟩, ⟨0x1b3, 2, 2, 1⟩, ⟨0x1b7, 1, 1, 219⟩,
   ⟨0x1b8, 1, 1, 1⟩, ⟨0x1bc, 1, 1, 1⟩, ⟨0x1bf, 1, 1, 56⟩, ⟨0x1cd, 8, 2, 1⟩, ⟨0x1de, 9, 2, 1⟩,
   ⟨0x1f4, 1, 1, 1⟩, ⟨0x1f8, 20, 2, 1⟩, ⟨0x222, 9, 2, 1⟩, ⟨0x23a, 1, 1, 10795⟩,
   ⟨0x23b, 1, 1, 1⟩, ⟨0x23e, 1, 1, 10792⟩, ⟨0x23f, 2, 1, 10815⟩, ⟨0x241, 1, 1, 1⟩,
   ⟨0x244, 1, 1, 69⟩, ⟨0x245, 1, 1, 71⟩, ⟨0x246, 5, 2, 1⟩, ⟨0x250, 1, 1, 10783⟩,
   ⟨0x251, 1, 1, 10780⟩, ⟨0x252, 1, 1, 10782⟩, ⟨0x25c, 1, 1, 42319⟩, ⟨0x261, 1, 1, 42315⟩,
   ⟨0x264, 1, 1, 42343⟩, ⟨0x265, 1, 1, 42280⟩, ⟨0x266, 1, 1, 42308⟩, ⟨0x26a, 1, 1, 42308⟩,
   ⟨0x26b, 1, 1, 10743⟩, ⟨0x26c, 1, 1, 42305⟩, ⟨0x271, 1, 1, 10749⟩, ⟨0x27d, 1, 1, 10727⟩,
   ⟨0x282, 1, 1, 42307⟩, ⟨0x287, 1, 1, 42282⟩, ⟨0x29d, 1, 1, 42261⟩, ⟨0x29e, 1, 1, 42258⟩,
   ⟨0x370, 2, 2, 1⟩, ⟨0x376, 1, 1, 1⟩, ⟨0x37b, 3, 1, 130⟩, ⟨0x37f, 1, 1, 116⟩,
   ⟨0x386, 1, 1, 38⟩, ⟨0x388, 3, 1, 37⟩, ⟨0x38c, 1, 1, 64⟩, ⟨0x38e, 2, 1, 63⟩,
   ⟨0x391, 2, 2, 32⟩, ⟨0x394, 2, 2, 32⟩, ⟨0x397, 1, 1, 32⟩, ⟨0x39b, 2, 2, 32⟩,
   ⟨0x39e, 2, 1, 32⟩, ⟨0x3a4, 2, 1, 32⟩, ⟨0x3a7, 2, 1, 32⟩, ⟨0x3aa, 2, 1, 32⟩,
   ⟨0x3cf, 1, 1, 8⟩, ⟨0x3d8, 12, 2, 1⟩, ⟨0x3f2, 1, 1, 7⟩, ⟨0x3f7, 1, 1, 1⟩, ⟨0x3fa, 1, 1, 1⟩,
   ⟨0x400, 16, 1, 80⟩, ⟨0x410, 2, 1, 32⟩, ⟨0x413, 2, 2, 32⟩, ⟨0x416, 8, 1, 32⟩,
   ⟨0x41f, 2, 1, 32⟩, ⟨0x423, 7, 1, 32⟩, ⟨0x42b, 5, 1, 32⟩, ⟨0x460, 1, 1, 1⟩,
   ⟨0x464, 15, 2, 1⟩, ⟨0x48a, 27, 2, 1⟩, ⟨0x4c0, 1, 1, 15⟩, ⟨0x4c1, 7, 2, 1⟩,
   ⟨0x4d0, 48, 2, 1⟩, ⟨0x531, 38, 1, 48⟩, ⟨0x10a0, 38, 1, 7264⟩, ⟨0x10c7, 1, 1, 7264⟩,
   ⟨0x10cd, 1, 1, 7264⟩, ⟨0x10d0, 43, 1, 3008⟩, ⟨0x10fd, 3, 1, 3008⟩, ⟨0x13a0, 80, 1, 38864⟩,
   ⟨0x13f0, 6, 1, 8⟩, ⟨0x1c89, 1, 1, 1⟩, ⟨0x1d79, 1, 1, 35332⟩, ⟨0x1d7d, 1, 1, 3814⟩,
   ⟨0x1d8e, 1, 1, 35384⟩, ⟨0x1e00, 48, 2, 1⟩, ⟨0x1e62, 26, 2, 1⟩, ⟨0x1ea0, 48, 2, 1⟩,
   ⟨0x1f00, 8, 1, 8⟩, ⟨0x1f10, 6, 1, 8⟩, ⟨0x1f20, 8, 1, 8⟩, ⟨0x1f30, 8, 1, 8⟩,
   ⟨0x1f40, 6, 1, 8⟩, ⟨0x1f51, 4, 2, 8⟩, ⟨0x1f60, 8, 1, 8⟩, ⟨0x1f70, 2, 1, 74⟩,
   ⟨0x1f72, 4, 1, 86⟩, ⟨0x1f76, 2, 1, 100⟩, ⟨0x1f78, 2, 1, 128⟩, ⟨0x1f7a, 2, 1, 112⟩,
   ⟨0x1f7c, 2, 1, 126⟩, ⟨0x1f80, 8, 1, 8⟩, ⟨0x1f90, 8, 1, 8⟩, ⟨0x1fa0, 8, 1, 8⟩,
   ⟨0x1fb0, 2, 1, 8⟩, ⟨0x1fb3, 1, 1, 9⟩, ⟨0x1fc3, 1, 1, 9⟩, ⟨0x1fd0, 2, 1, 8⟩,
   ⟨0x1fe0, 2, 1, 8⟩, ⟨0x1fe5, 1, 1, 7⟩, ⟨0x1ff3, 1, 1, 9⟩, ⟨0x2132, 1, 1, 28⟩,
   ⟨0x2160, 16, 1, 16⟩, ⟨0x2183, 1, 1, 1⟩, ⟨0x24b6, 26, 1, 26⟩, ⟨0x2c00, 48, 1, 48⟩,
   ⟨0x2c60, 1, 1, 1⟩, ⟨0x2c67, 3, 2, 1⟩, ⟨0x2c72, 1, 1, 1⟩, ⟨0x2c75, 1, 1, 1⟩,
   ⟨0x2c80, 50, 2, 1⟩, ⟨0x2ceb, 2, 2, 1⟩, ⟨0x2cf2, 1, 1, 1⟩, ⟨0xa640, 5, 2, 1⟩,
   ⟨0xa64c, 17, 2, 1⟩, ⟨0xa680, 14, 2, 1⟩, ⟨0xa722, 7, 2, 1⟩, ⟨0xa732, 31, 2, 1⟩,
   ⟨0xa779, 2, 2, 1⟩, ⟨0xa77e, 5, 2, 1⟩, ⟨0xa78b, 1, 1, 1⟩, ⟨0xa790, 2, 2, 1⟩,
   ⟨0xa794, 1, 1, 48⟩, ⟨0xa796, 10, 2, 1⟩, ⟨0xa7b3, 1, 1, 928⟩, ⟨0xa7b4, 8, 2, 1⟩,
   ⟨0xa7c7, 2, 2, 1⟩, ⟨0xa7cc, 8, 2, 1⟩, ⟨0xa7f5, 1, 1, 1⟩, ⟨0xff21, 26, 1, 32⟩,
   ⟨0x10400, 40, 1, 40⟩, ⟨0x104b0, 36, 1, 40⟩, ⟨0x10570, 11, 1, 39⟩, ⟨0x1057c, 15, 1, 39⟩,
   ⟨0x1058c, 7, 1, 39⟩, ⟨0x10594, 2, 1, 39⟩, ⟨0x10c80, 51, 1, 64⟩, ⟨0x10d50, 22, 1, 32⟩,
   ⟨0x118a0, 32, 1, 32⟩, ⟨0x16e40, 32, 1, 32⟩, ⟨0x16ea0, 25, 1, 27⟩, ⟨0x1e900, 34, 1, 34⟩]

/-- The orbits that come in no run. -/
def groups : List (List Nat) :=
  [[0x4b, 0x6b, 0x212a], [0x53, 0x73, 0x17f], [0xb5, 0x39c, 0x3bc], [0xc5, 0xe5, 0x212b],
   [0x1c4, 0x1c5, 0x1c6], [0x1c7, 0x1c8, 0x1c9], [0x1ca, 0x1cb, 0x1cc], [0x1f1, 0x1f2, 0x1f3],
   [0x345, 0x399, 0x3b9, 0x1fbe], [0x390, 0x1fd3], [0x392, 0x3b2, 0x3d0],
   [0x395, 0x3b5, 0x3f5], [0x398, 0x3b8, 0x3d1, 0x3f4], [0x39a, 0x3ba, 0x3f0],
   [0x3a0, 0x3c0, 0x3d6], [0x3a1, 0x3c1, 0x3f1], [0x3a3, 0x3c2, 0x3c3], [0x3a6, 0x3c6, 0x3d5],
   [0x3a9, 0x3c9, 0x2126], [0x3b0, 0x1fe3], [0x412, 0x432, 0x1c80], [0x414, 0x434, 0x1c81],
   [0x41e, 0x43e, 0x1c82], [0x421, 0x441, 0x1c83], [0x422, 0x442, 0x1c84, 0x1c85],
   [0x42a, 0x44a, 0x1c86], [0x462, 0x463, 0x1c87], [0x1c88, 0xa64a, 0xa64b],
   [0x1e60, 0x1e61, 0x1e9b], [0xfb05, 0xfb06]]

end CaseOrbit

/-- Whether `code` is the first member of one of the run's pairs. -/
def CaseRun.starts (run : CaseRun) (code : Nat) : Bool :=
  run.first ≤ code && (code - run.first) % run.stride == 0
    && (code - run.first) / run.stride < run.count

/-- The other member of the pair that holds `code`. -/
def CaseRun.partner? (run : CaseRun) (code : Nat) : Option Nat :=
  if run.starts code then some (code + run.distance)
  else if run.distance ≤ code && run.starts (code - run.distance) then some (code - run.distance)
  else none

/-- The characters that case folding takes for `c`, with `c` itself. -/
def CaseOrbit.of (c : Char) : List Char :=
  match groups.find? (·.contains c.toNat) with
  | some group => group.map Char.ofNat
  | none =>
      match pairs.findSome? (·.partner? c.toNat) with
      | some partner => [c, Char.ofNat partner]
      | none => [c]

end EarleyChart.Unicode
