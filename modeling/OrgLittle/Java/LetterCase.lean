import OrgLittle.Java.Text

/-!
# Letter case

`Character.toUpperCase` and `toLowerCase` and the methods of `String` that rest on them, with the letters of
Unicode 6.2, as Java 8 has them. Most letters stand in runs that are mapped in step. A comparison without regard to
case goes by UTF-16 units and folds each of them (`folded`), while `toUpperCase` of a text goes by characters, some of
which have an upper case of several letters (`expansions`).
-/

namespace OrgLittle.Java

/-! ## The tables -/

/-- Letters, each or every second one from the first to the last, that are mapped in step. -/
structure CaseRun where
  first : ℕ
  last : ℕ
  step : ℕ
  mapped : ℕ

/-- The letter is one of the run. -/
def CaseRun.Has (run : CaseRun) (n : ℕ) : Prop := run.first ≤ n ∧ n ≤ run.last ∧ (n - run.first) % run.step = 0

instance (run : CaseRun) (n : ℕ) : Decidable (run.Has n) := inferInstanceAs (Decidable (_ ∧ _ ∧ _))

/-- The mapping that a table gives; the other characters are mapped to themselves. -/
def mapCase (runs : List CaseRun) (n : ℕ) : ℕ :=
  match runs.find? fun run => run.Has n with
  | some run => run.mapped + (n - run.first)
  | none => n

/-- What is mapped comes from a run or is left as it is. -/
theorem mapCase_cases (runs : List CaseRun) (n : ℕ) :
    mapCase runs n = n ∨ ∃ run ∈ runs, mapCase runs n = run.mapped + (n - run.first) := by
  unfold mapCase
  split
  · next run hrun => exact .inr ⟨run, List.mem_of_find?_eq_some hrun, rfl⟩
  · exact .inl rfl

/-- The letters behind US-ASCII that have an upper case of one letter. -/
def upperRuns : List CaseRun :=
  [⟨0xb5, 0xb5, 1, 0x39c⟩, ⟨0xe0, 0xf6, 1, 0xc0⟩, ⟨0xf8, 0xfe, 1, 0xd8⟩, ⟨0xff, 0xff, 1, 0x178⟩,
    ⟨0x101, 0x12f, 2, 0x100⟩, ⟨0x131, 0x131, 1, 0x49⟩, ⟨0x133, 0x137, 2, 0x132⟩, ⟨0x13a, 0x148, 2, 0x139⟩,
    ⟨0x14b, 0x177, 2, 0x14a⟩, ⟨0x17a, 0x17e, 2, 0x179⟩, ⟨0x17f, 0x17f, 1, 0x53⟩, ⟨0x180, 0x180, 1, 0x243⟩,
    ⟨0x183, 0x185, 2, 0x182⟩, ⟨0x188, 0x188, 1, 0x187⟩, ⟨0x18c, 0x18c, 1, 0x18b⟩, ⟨0x192, 0x192, 1, 0x191⟩,
    ⟨0x195, 0x195, 1, 0x1f6⟩, ⟨0x199, 0x199, 1, 0x198⟩, ⟨0x19a, 0x19a, 1, 0x23d⟩, ⟨0x19e, 0x19e, 1, 0x220⟩,
    ⟨0x1a1, 0x1a5, 2, 0x1a0⟩, ⟨0x1a8, 0x1a8, 1, 0x1a7⟩, ⟨0x1ad, 0x1ad, 1, 0x1ac⟩, ⟨0x1b0, 0x1b0, 1, 0x1af⟩,
    ⟨0x1b4, 0x1b6, 2, 0x1b3⟩, ⟨0x1b9, 0x1b9, 1, 0x1b8⟩, ⟨0x1bd, 0x1bd, 1, 0x1bc⟩, ⟨0x1bf, 0x1bf, 1, 0x1f7⟩,
    ⟨0x1c5, 0x1c5, 1, 0x1c4⟩, ⟨0x1c6, 0x1c6, 1, 0x1c4⟩, ⟨0x1c8, 0x1c8, 1, 0x1c7⟩, ⟨0x1c9, 0x1c9, 1, 0x1c7⟩,
    ⟨0x1cb, 0x1cb, 1, 0x1ca⟩, ⟨0x1cc, 0x1cc, 1, 0x1ca⟩, ⟨0x1ce, 0x1dc, 2, 0x1cd⟩, ⟨0x1dd, 0x1dd, 1, 0x18e⟩,
    ⟨0x1df, 0x1ef, 2, 0x1de⟩, ⟨0x1f2, 0x1f2, 1, 0x1f1⟩, ⟨0x1f3, 0x1f3, 1, 0x1f1⟩, ⟨0x1f5, 0x1f5, 1, 0x1f4⟩,
    ⟨0x1f9, 0x21f, 2, 0x1f8⟩, ⟨0x223, 0x233, 2, 0x222⟩, ⟨0x23c, 0x23c, 1, 0x23b⟩, ⟨0x23f, 0x240, 1, 0x2c7e⟩,
    ⟨0x242, 0x242, 1, 0x241⟩, ⟨0x247, 0x24f, 2, 0x246⟩, ⟨0x250, 0x250, 1, 0x2c6f⟩, ⟨0x251, 0x251, 1, 0x2c6d⟩,
    ⟨0x252, 0x252, 1, 0x2c70⟩, ⟨0x253, 0x253, 1, 0x181⟩, ⟨0x254, 0x254, 1, 0x186⟩, ⟨0x256, 0x257, 1, 0x189⟩,
    ⟨0x259, 0x259, 1, 0x18f⟩, ⟨0x25b, 0x25b, 1, 0x190⟩, ⟨0x260, 0x260, 1, 0x193⟩, ⟨0x263, 0x263, 1, 0x194⟩,
    ⟨0x265, 0x265, 1, 0xa78d⟩, ⟨0x266, 0x266, 1, 0xa7aa⟩, ⟨0x268, 0x268, 1, 0x197⟩, ⟨0x269, 0x269, 1, 0x196⟩,
    ⟨0x26b, 0x26b, 1, 0x2c62⟩, ⟨0x26f, 0x26f, 1, 0x19c⟩, ⟨0x271, 0x271, 1, 0x2c6e⟩, ⟨0x272, 0x272, 1, 0x19d⟩,
    ⟨0x275, 0x275, 1, 0x19f⟩, ⟨0x27d, 0x27d, 1, 0x2c64⟩, ⟨0x280, 0x280, 1, 0x1a6⟩, ⟨0x283, 0x283, 1, 0x1a9⟩,
    ⟨0x288, 0x288, 1, 0x1ae⟩, ⟨0x289, 0x289, 1, 0x244⟩, ⟨0x28a, 0x28b, 1, 0x1b1⟩, ⟨0x28c, 0x28c, 1, 0x245⟩,
    ⟨0x292, 0x292, 1, 0x1b7⟩, ⟨0x345, 0x345, 1, 0x399⟩, ⟨0x371, 0x373, 2, 0x370⟩, ⟨0x377, 0x377, 1, 0x376⟩,
    ⟨0x37b, 0x37d, 1, 0x3fd⟩, ⟨0x3ac, 0x3ac, 1, 0x386⟩, ⟨0x3ad, 0x3af, 1, 0x388⟩, ⟨0x3b1, 0x3c1, 1, 0x391⟩,
    ⟨0x3c2, 0x3c2, 1, 0x3a3⟩, ⟨0x3c3, 0x3cb, 1, 0x3a3⟩, ⟨0x3cc, 0x3cc, 1, 0x38c⟩, ⟨0x3cd, 0x3ce, 1, 0x38e⟩,
    ⟨0x3d0, 0x3d0, 1, 0x392⟩, ⟨0x3d1, 0x3d1, 1, 0x398⟩, ⟨0x3d5, 0x3d5, 1, 0x3a6⟩, ⟨0x3d6, 0x3d6, 1, 0x3a0⟩,
    ⟨0x3d7, 0x3d7, 1, 0x3cf⟩, ⟨0x3d9, 0x3ef, 2, 0x3d8⟩, ⟨0x3f0, 0x3f0, 1, 0x39a⟩, ⟨0x3f1, 0x3f1, 1, 0x3a1⟩,
    ⟨0x3f2, 0x3f2, 1, 0x3f9⟩, ⟨0x3f5, 0x3f5, 1, 0x395⟩, ⟨0x3f8, 0x3f8, 1, 0x3f7⟩, ⟨0x3fb, 0x3fb, 1, 0x3fa⟩,
    ⟨0x430, 0x44f, 1, 0x410⟩, ⟨0x450, 0x45f, 1, 0x400⟩, ⟨0x461, 0x481, 2, 0x460⟩, ⟨0x48b, 0x4bf, 2, 0x48a⟩,
    ⟨0x4c2, 0x4ce, 2, 0x4c1⟩, ⟨0x4cf, 0x4cf, 1, 0x4c0⟩, ⟨0x4d1, 0x527, 2, 0x4d0⟩, ⟨0x561, 0x586, 1, 0x531⟩,
    ⟨0x1d79, 0x1d79, 1, 0xa77d⟩, ⟨0x1d7d, 0x1d7d, 1, 0x2c63⟩, ⟨0x1e01, 0x1e95, 2, 0x1e00⟩,
    ⟨0x1e9b, 0x1e9b, 1, 0x1e60⟩, ⟨0x1ea1, 0x1eff, 2, 0x1ea0⟩, ⟨0x1f00, 0x1f07, 1, 0x1f08⟩,
    ⟨0x1f10, 0x1f15, 1, 0x1f18⟩, ⟨0x1f20, 0x1f27, 1, 0x1f28⟩, ⟨0x1f30, 0x1f37, 1, 0x1f38⟩,
    ⟨0x1f40, 0x1f45, 1, 0x1f48⟩, ⟨0x1f51, 0x1f57, 2, 0x1f59⟩, ⟨0x1f60, 0x1f67, 1, 0x1f68⟩,
    ⟨0x1f70, 0x1f71, 1, 0x1fba⟩, ⟨0x1f72, 0x1f75, 1, 0x1fc8⟩, ⟨0x1f76, 0x1f77, 1, 0x1fda⟩,
    ⟨0x1f78, 0x1f79, 1, 0x1ff8⟩, ⟨0x1f7a, 0x1f7b, 1, 0x1fea⟩, ⟨0x1f7c, 0x1f7d, 1, 0x1ffa⟩,
    ⟨0x1f80, 0x1f87, 1, 0x1f88⟩, ⟨0x1f90, 0x1f97, 1, 0x1f98⟩, ⟨0x1fa0, 0x1fa7, 1, 0x1fa8⟩,
    ⟨0x1fb0, 0x1fb1, 1, 0x1fb8⟩, ⟨0x1fb3, 0x1fb3, 1, 0x1fbc⟩, ⟨0x1fbe, 0x1fbe, 1, 0x399⟩,
    ⟨0x1fc3, 0x1fc3, 1, 0x1fcc⟩, ⟨0x1fd0, 0x1fd1, 1, 0x1fd8⟩, ⟨0x1fe0, 0x1fe1, 1, 0x1fe8⟩,
    ⟨0x1fe5, 0x1fe5, 1, 0x1fec⟩, ⟨0x1ff3, 0x1ff3, 1, 0x1ffc⟩, ⟨0x214e, 0x214e, 1, 0x2132⟩,
    ⟨0x2170, 0x217f, 1, 0x2160⟩, ⟨0x2184, 0x2184, 1, 0x2183⟩, ⟨0x24d0, 0x24e9, 1, 0x24b6⟩,
    ⟨0x2c30, 0x2c5e, 1, 0x2c00⟩, ⟨0x2c61, 0x2c61, 1, 0x2c60⟩, ⟨0x2c65, 0x2c65, 1, 0x23a⟩, ⟨0x2c66, 0x2c66, 1, 0x23e⟩,
    ⟨0x2c68, 0x2c6c, 2, 0x2c67⟩, ⟨0x2c73, 0x2c73, 1, 0x2c72⟩, ⟨0x2c76, 0x2c76, 1, 0x2c75⟩,
    ⟨0x2c81, 0x2ce3, 2, 0x2c80⟩, ⟨0x2cec, 0x2cee, 2, 0x2ceb⟩, ⟨0x2cf3, 0x2cf3, 1, 0x2cf2⟩,
    ⟨0x2d00, 0x2d25, 1, 0x10a0⟩, ⟨0x2d27, 0x2d27, 1, 0x10c7⟩, ⟨0x2d2d, 0x2d2d, 1, 0x10cd⟩,
    ⟨0xa641, 0xa66d, 2, 0xa640⟩, ⟨0xa681, 0xa697, 2, 0xa680⟩, ⟨0xa723, 0xa72f, 2, 0xa722⟩,
    ⟨0xa733, 0xa76f, 2, 0xa732⟩, ⟨0xa77a, 0xa77c, 2, 0xa779⟩, ⟨0xa77f, 0xa787, 2, 0xa77e⟩,
    ⟨0xa78c, 0xa78c, 1, 0xa78b⟩, ⟨0xa791, 0xa793, 2, 0xa790⟩, ⟨0xa7a1, 0xa7a9, 2, 0xa7a0⟩,
    ⟨0xff41, 0xff5a, 1, 0xff21⟩, ⟨0x10428, 0x1044f, 1, 0x10400⟩]

/-- The letters behind US-ASCII that have a lower case. -/
def lowerRuns : List CaseRun :=
  [⟨0xc0, 0xd6, 1, 0xe0⟩, ⟨0xd8, 0xde, 1, 0xf8⟩, ⟨0x100, 0x12e, 2, 0x101⟩, ⟨0x130, 0x130, 1, 0x69⟩,
    ⟨0x132, 0x136, 2, 0x133⟩, ⟨0x139, 0x147, 2, 0x13a⟩, ⟨0x14a, 0x176, 2, 0x14b⟩, ⟨0x178, 0x178, 1, 0xff⟩,
    ⟨0x179, 0x17d, 2, 0x17a⟩, ⟨0x181, 0x181, 1, 0x253⟩, ⟨0x182, 0x184, 2, 0x183⟩, ⟨0x186, 0x186, 1, 0x254⟩,
    ⟨0x187, 0x187, 1, 0x188⟩, ⟨0x189, 0x18a, 1, 0x256⟩, ⟨0x18b, 0x18b, 1, 0x18c⟩, ⟨0x18e, 0x18e, 1, 0x1dd⟩,
    ⟨0x18f, 0x18f, 1, 0x259⟩, ⟨0x190, 0x190, 1, 0x25b⟩, ⟨0x191, 0x191, 1, 0x192⟩, ⟨0x193, 0x193, 1, 0x260⟩,
    ⟨0x194, 0x194, 1, 0x263⟩, ⟨0x196, 0x196, 1, 0x269⟩, ⟨0x197, 0x197, 1, 0x268⟩, ⟨0x198, 0x198, 1, 0x199⟩,
    ⟨0x19c, 0x19c, 1, 0x26f⟩, ⟨0x19d, 0x19d, 1, 0x272⟩, ⟨0x19f, 0x19f, 1, 0x275⟩, ⟨0x1a0, 0x1a4, 2, 0x1a1⟩,
    ⟨0x1a6, 0x1a6, 1, 0x280⟩, ⟨0x1a7, 0x1a7, 1, 0x1a8⟩, ⟨0x1a9, 0x1a9, 1, 0x283⟩, ⟨0x1ac, 0x1ac, 1, 0x1ad⟩,
    ⟨0x1ae, 0x1ae, 1, 0x288⟩, ⟨0x1af, 0x1af, 1, 0x1b0⟩, ⟨0x1b1, 0x1b2, 1, 0x28a⟩, ⟨0x1b3, 0x1b5, 2, 0x1b4⟩,
    ⟨0x1b7, 0x1b7, 1, 0x292⟩, ⟨0x1b8, 0x1b8, 1, 0x1b9⟩, ⟨0x1bc, 0x1bc, 1, 0x1bd⟩, ⟨0x1c4, 0x1c4, 1, 0x1c6⟩,
    ⟨0x1c5, 0x1c5, 1, 0x1c6⟩, ⟨0x1c7, 0x1c7, 1, 0x1c9⟩, ⟨0x1c8, 0x1c8, 1, 0x1c9⟩, ⟨0x1ca, 0x1ca, 1, 0x1cc⟩,
    ⟨0x1cb, 0x1db, 2, 0x1cc⟩, ⟨0x1de, 0x1ee, 2, 0x1df⟩, ⟨0x1f1, 0x1f1, 1, 0x1f3⟩, ⟨0x1f2, 0x1f4, 2, 0x1f3⟩,
    ⟨0x1f6, 0x1f6, 1, 0x195⟩, ⟨0x1f7, 0x1f7, 1, 0x1bf⟩, ⟨0x1f8, 0x21e, 2, 0x1f9⟩, ⟨0x220, 0x220, 1, 0x19e⟩,
    ⟨0x222, 0x232, 2, 0x223⟩, ⟨0x23a, 0x23a, 1, 0x2c65⟩, ⟨0x23b, 0x23b, 1, 0x23c⟩, ⟨0x23d, 0x23d, 1, 0x19a⟩,
    ⟨0x23e, 0x23e, 1, 0x2c66⟩, ⟨0x241, 0x241, 1, 0x242⟩, ⟨0x243, 0x243, 1, 0x180⟩, ⟨0x244, 0x244, 1, 0x289⟩,
    ⟨0x245, 0x245, 1, 0x28c⟩, ⟨0x246, 0x24e, 2, 0x247⟩, ⟨0x370, 0x372, 2, 0x371⟩, ⟨0x376, 0x376, 1, 0x377⟩,
    ⟨0x386, 0x386, 1, 0x3ac⟩, ⟨0x388, 0x38a, 1, 0x3ad⟩, ⟨0x38c, 0x38c, 1, 0x3cc⟩, ⟨0x38e, 0x38f, 1, 0x3cd⟩,
    ⟨0x391, 0x3a1, 1, 0x3b1⟩, ⟨0x3a3, 0x3ab, 1, 0x3c3⟩, ⟨0x3cf, 0x3cf, 1, 0x3d7⟩, ⟨0x3d8, 0x3ee, 2, 0x3d9⟩,
    ⟨0x3f4, 0x3f4, 1, 0x3b8⟩, ⟨0x3f7, 0x3f7, 1, 0x3f8⟩, ⟨0x3f9, 0x3f9, 1, 0x3f2⟩, ⟨0x3fa, 0x3fa, 1, 0x3fb⟩,
    ⟨0x3fd, 0x3ff, 1, 0x37b⟩, ⟨0x400, 0x40f, 1, 0x450⟩, ⟨0x410, 0x42f, 1, 0x430⟩, ⟨0x460, 0x480, 2, 0x461⟩,
    ⟨0x48a, 0x4be, 2, 0x48b⟩, ⟨0x4c0, 0x4c0, 1, 0x4cf⟩, ⟨0x4c1, 0x4cd, 2, 0x4c2⟩, ⟨0x4d0, 0x526, 2, 0x4d1⟩,
    ⟨0x531, 0x556, 1, 0x561⟩, ⟨0x10a0, 0x10c5, 1, 0x2d00⟩, ⟨0x10c7, 0x10c7, 1, 0x2d27⟩, ⟨0x10cd, 0x10cd, 1, 0x2d2d⟩,
    ⟨0x1e00, 0x1e94, 2, 0x1e01⟩, ⟨0x1e9e, 0x1e9e, 1, 0xdf⟩, ⟨0x1ea0, 0x1efe, 2, 0x1ea1⟩, ⟨0x1f08, 0x1f0f, 1, 0x1f00⟩,
    ⟨0x1f18, 0x1f1d, 1, 0x1f10⟩, ⟨0x1f28, 0x1f2f, 1, 0x1f20⟩, ⟨0x1f38, 0x1f3f, 1, 0x1f30⟩,
    ⟨0x1f48, 0x1f4d, 1, 0x1f40⟩, ⟨0x1f59, 0x1f5f, 2, 0x1f51⟩, ⟨0x1f68, 0x1f6f, 1, 0x1f60⟩,
    ⟨0x1f88, 0x1f8f, 1, 0x1f80⟩, ⟨0x1f98, 0x1f9f, 1, 0x1f90⟩, ⟨0x1fa8, 0x1faf, 1, 0x1fa0⟩,
    ⟨0x1fb8, 0x1fb9, 1, 0x1fb0⟩, ⟨0x1fba, 0x1fbb, 1, 0x1f70⟩, ⟨0x1fbc, 0x1fbc, 1, 0x1fb3⟩,
    ⟨0x1fc8, 0x1fcb, 1, 0x1f72⟩, ⟨0x1fcc, 0x1fcc, 1, 0x1fc3⟩, ⟨0x1fd8, 0x1fd9, 1, 0x1fd0⟩,
    ⟨0x1fda, 0x1fdb, 1, 0x1f76⟩, ⟨0x1fe8, 0x1fe9, 1, 0x1fe0⟩, ⟨0x1fea, 0x1feb, 1, 0x1f7a⟩,
    ⟨0x1fec, 0x1fec, 1, 0x1fe5⟩, ⟨0x1ff8, 0x1ff9, 1, 0x1f78⟩, ⟨0x1ffa, 0x1ffb, 1, 0x1f7c⟩,
    ⟨0x1ffc, 0x1ffc, 1, 0x1ff3⟩, ⟨0x2126, 0x2126, 1, 0x3c9⟩, ⟨0x212a, 0x212a, 1, 0x6b⟩, ⟨0x212b, 0x212b, 1, 0xe5⟩,
    ⟨0x2132, 0x2132, 1, 0x214e⟩, ⟨0x2160, 0x216f, 1, 0x2170⟩, ⟨0x2183, 0x2183, 1, 0x2184⟩,
    ⟨0x24b6, 0x24cf, 1, 0x24d0⟩, ⟨0x2c00, 0x2c2e, 1, 0x2c30⟩, ⟨0x2c60, 0x2c60, 1, 0x2c61⟩,
    ⟨0x2c62, 0x2c62, 1, 0x26b⟩, ⟨0x2c63, 0x2c63, 1, 0x1d7d⟩, ⟨0x2c64, 0x2c64, 1, 0x27d⟩, ⟨0x2c67, 0x2c6b, 2, 0x2c68⟩,
    ⟨0x2c6d, 0x2c6d, 1, 0x251⟩, ⟨0x2c6e, 0x2c6e, 1, 0x271⟩, ⟨0x2c6f, 0x2c6f, 1, 0x250⟩, ⟨0x2c70, 0x2c70, 1, 0x252⟩,
    ⟨0x2c72, 0x2c72, 1, 0x2c73⟩, ⟨0x2c75, 0x2c75, 1, 0x2c76⟩, ⟨0x2c7e, 0x2c7f, 1, 0x23f⟩,
    ⟨0x2c80, 0x2ce2, 2, 0x2c81⟩, ⟨0x2ceb, 0x2ced, 2, 0x2cec⟩, ⟨0x2cf2, 0x2cf2, 1, 0x2cf3⟩,
    ⟨0xa640, 0xa66c, 2, 0xa641⟩, ⟨0xa680, 0xa696, 2, 0xa681⟩, ⟨0xa722, 0xa72e, 2, 0xa723⟩,
    ⟨0xa732, 0xa76e, 2, 0xa733⟩, ⟨0xa779, 0xa77b, 2, 0xa77a⟩, ⟨0xa77d, 0xa77d, 1, 0x1d79⟩,
    ⟨0xa77e, 0xa786, 2, 0xa77f⟩, ⟨0xa78b, 0xa78b, 1, 0xa78c⟩, ⟨0xa78d, 0xa78d, 1, 0x265⟩,
    ⟨0xa790, 0xa792, 2, 0xa791⟩, ⟨0xa7a0, 0xa7a8, 2, 0xa7a1⟩, ⟨0xa7aa, 0xa7aa, 1, 0x266⟩,
    ⟨0xff21, 0xff3a, 1, 0xff41⟩, ⟨0x10400, 0x10427, 1, 0x10428⟩]

/-- The upper case of a code point. -/
def upperPoint (n : ℕ) : ℕ := if n < 128 then (if 97 ≤ n ∧ n ≤ 122 then n - 32 else n) else mapCase upperRuns n

/-- The lower case of a code point. -/
def lowerPoint (n : ℕ) : ℕ := if n < 128 then (if 65 ≤ n ∧ n ≤ 90 then n + 32 else n) else mapCase lowerRuns n

/-- The lower case of no character is a capital letter of US-ASCII. -/
theorem lowerPoint_notMem_capitals (n : ℕ) : ¬ (65 ≤ lowerPoint n ∧ lowerPoint n ≤ 90) := by
  have hruns : ∀ run ∈ lowerRuns, 90 < run.mapped := by decide +kernel
  unfold lowerPoint
  split_ifs with hascii hcapital
  · omega
  · exact hcapital
  · rcases mapCase_cases lowerRuns n with heq | ⟨run, hrun, heq⟩
    · omega
    · have hmapped := hruns run hrun
      omega

/-! ## UTF-16 units -/

/-- A text as Java has it, in UTF-16 units. -/
abbrev JText := List UInt16

/-- The unit of a character of the basic plane. -/
def unit (c : Char) : UInt16 := UInt16.ofNat c.toNat

/-- The `char`s of a character. -/
def charUnits (c : Char) : JText :=
  if c.toNat < 0x10000 then [unit c]
  else [UInt16.ofNat (0xd800 + (c.toNat - 0x10000) / 0x400), UInt16.ofNat (0xdc00 + (c.toNat - 0x10000) % 0x400)]

/-- The `char`s of a text. -/
def utf16 (s : JString) : JText := s.flatMap charUnits

@[simp] theorem utf16_nil : utf16 [] = [] := rfl

@[simp] theorem utf16_cons (c : Char) (s : JString) : utf16 (c :: s) = charUnits c ++ utf16 s := rfl

/-- The text of a list of `char`s in which the surrogates stand in pairs. -/
def ofUtf16 : JText → JString
  | [] => []
  | [c] => [Char.ofNat c.toNat]
  | c :: d :: s =>
    if 0xd800 ≤ c.toNat ∧ c.toNat < 0xdc00 then
      Char.ofNat (0x10000 + (c.toNat - 0xd800) * 0x400 + (d.toNat - 0xdc00)) :: ofUtf16 s
    else Char.ofNat c.toNat :: ofUtf16 (d :: s)

/-- The `char`s of a text give the text again. -/
theorem ofUtf16_utf16 (s : JString) : ofUtf16 (utf16 s) = s := by
  induction s with
  | nil => rfl
  | cons c s ih =>
    have hvalid : c.toNat < 0xd800 ∨ (0xdfff < c.toNat ∧ c.toNat < 0x110000) := c.valid
    rw [utf16_cons, charUnits]
    split_ifs with hbmp
    · have hunit : (unit c).toNat = c.toNat := by
        rw [unit, UInt16.toNat_ofNat', Nat.mod_eq_of_lt (by omega)]
      rw [List.singleton_append]
      cases hrest : utf16 s with
      | nil =>
        obtain rfl : s = [] := by rw [← ih, hrest, ofUtf16]
        rw [ofUtf16, hunit, Char.ofNat_toNat]
      | cons d t =>
        rw [ofUtf16, hunit, if_neg (by omega), ← hrest, ih, Char.ofNat_toNat]
    · have hhigh : (UInt16.ofNat (0xd800 + (c.toNat - 0x10000) / 0x400)).toNat
          = 0xd800 + (c.toNat - 0x10000) / 0x400 := by
        rw [UInt16.toNat_ofNat', Nat.mod_eq_of_lt (by omega)]
      have hlow : (UInt16.ofNat (0xdc00 + (c.toNat - 0x10000) % 0x400)).toNat
          = 0xdc00 + (c.toNat - 0x10000) % 0x400 := by
        rw [UInt16.toNat_ofNat', Nat.mod_eq_of_lt (by omega)]
      have hpoint : 0x10000 + (0xd800 + (c.toNat - 0x10000) / 0x400 - 0xd800) * 0x400
          + (0xdc00 + (c.toNat - 0x10000) % 0x400 - 0xdc00) = c.toNat := by omega
      rw [List.cons_append, List.singleton_append, ofUtf16, hhigh, hlow, if_pos (by omega), ih, hpoint,
        Char.ofNat_toNat]

theorem utf16_injective : Function.Injective utf16 :=
  Function.LeftInverse.injective ofUtf16_utf16

/-! ## Comparisons without regard to case -/

/-- `Character.toUpperCase` on a `char`. -/
def Character.toUpperCase (c : UInt16) : UInt16 := UInt16.ofNat (upperPoint c.toNat)

/-- `Character.toLowerCase` on a `char`. -/
def Character.toLowerCase (c : UInt16) : UInt16 := UInt16.ofNat (lowerPoint c.toNat)

/-- What is compared of a `char`: the lower case of its upper case. -/
def foldUnit (c : UInt16) : ℕ := (Character.toLowerCase (Character.toUpperCase c)).toNat

/-- What is compared of a text. -/
def folded (s : JString) : List ℕ := (utf16 s).map foldUnit

/-- `String.equalsIgnoreCase`. -/
def equalsIgnoreCase (s t : JString) : Bool := folded s == folded t

/-- `s.compareToIgnoreCase(t) <= 0`. -/
def leIgnoreCase (s t : JString) : Bool := decide (folded s ≤ folded t)

theorem equalsIgnoreCase_iff {s t : JString} : equalsIgnoreCase s t = true ↔ folded s = folded t := beq_iff_eq

theorem equalsIgnoreCase_trans {n s t : JString} (hs : equalsIgnoreCase n s = true)
    (ht : equalsIgnoreCase n t = true) : equalsIgnoreCase s t = true := by
  rw [equalsIgnoreCase_iff] at *
  exact hs.symm.trans ht

/-- One text cannot be the same as two that differ. -/
theorem not_equalsIgnoreCase {s t u : JString} (hne : folded s ≠ folded t) (h : equalsIgnoreCase s u = true) :
    ¬ equalsIgnoreCase t u = true := by
  rw [equalsIgnoreCase_iff] at *
  intro ht
  exact hne (h.trans ht.symm)

/-! ## The case of a text -/

/-- Letters whose upper case has the same letters behind its first one. -/
structure Expansion where
  first : ℕ
  last : ℕ
  mapped : ℕ
  rest : List ℕ

/-- The letters with an upper case of several letters. -/
def expansions : List Expansion :=
  [⟨0xdf, 0xdf, 0x53, [0x53]⟩, ⟨0x149, 0x149, 0x2bc, [0x4e]⟩, ⟨0x1f0, 0x1f0, 0x4a, [0x30c]⟩,
    ⟨0x390, 0x390, 0x399, [0x308, 0x301]⟩, ⟨0x3b0, 0x3b0, 0x3a5, [0x308, 0x301]⟩, ⟨0x587, 0x587, 0x535, [0x552]⟩,
    ⟨0x1e96, 0x1e96, 0x48, [0x331]⟩, ⟨0x1e97, 0x1e97, 0x54, [0x308]⟩, ⟨0x1e98, 0x1e98, 0x57, [0x30a]⟩,
    ⟨0x1e99, 0x1e99, 0x59, [0x30a]⟩, ⟨0x1e9a, 0x1e9a, 0x41, [0x2be]⟩, ⟨0x1f50, 0x1f50, 0x3a5, [0x313]⟩,
    ⟨0x1f52, 0x1f52, 0x3a5, [0x313, 0x300]⟩, ⟨0x1f54, 0x1f54, 0x3a5, [0x313, 0x301]⟩,
    ⟨0x1f56, 0x1f56, 0x3a5, [0x313, 0x342]⟩, ⟨0x1f80, 0x1f87, 0x1f08, [0x399]⟩, ⟨0x1f88, 0x1f8f, 0x1f08, [0x399]⟩,
    ⟨0x1f90, 0x1f97, 0x1f28, [0x399]⟩, ⟨0x1f98, 0x1f9f, 0x1f28, [0x399]⟩, ⟨0x1fa0, 0x1fa7, 0x1f68, [0x399]⟩,
    ⟨0x1fa8, 0x1faf, 0x1f68, [0x399]⟩, ⟨0x1fb2, 0x1fb2, 0x1fba, [0x399]⟩, ⟨0x1fb3, 0x1fb3, 0x391, [0x399]⟩,
    ⟨0x1fb4, 0x1fb4, 0x386, [0x399]⟩, ⟨0x1fb6, 0x1fb6, 0x391, [0x342]⟩, ⟨0x1fb7, 0x1fb7, 0x391, [0x342, 0x399]⟩,
    ⟨0x1fbc, 0x1fbc, 0x391, [0x399]⟩, ⟨0x1fc2, 0x1fc2, 0x1fca, [0x399]⟩, ⟨0x1fc3, 0x1fc3, 0x397, [0x399]⟩,
    ⟨0x1fc4, 0x1fc4, 0x389, [0x399]⟩, ⟨0x1fc6, 0x1fc6, 0x397, [0x342]⟩, ⟨0x1fc7, 0x1fc7, 0x397, [0x342, 0x399]⟩,
    ⟨0x1fcc, 0x1fcc, 0x397, [0x399]⟩, ⟨0x1fd2, 0x1fd2, 0x399, [0x308, 0x300]⟩,
    ⟨0x1fd3, 0x1fd3, 0x399, [0x308, 0x301]⟩, ⟨0x1fd6, 0x1fd6, 0x399, [0x342]⟩,
    ⟨0x1fd7, 0x1fd7, 0x399, [0x308, 0x342]⟩, ⟨0x1fe2, 0x1fe2, 0x3a5, [0x308, 0x300]⟩,
    ⟨0x1fe3, 0x1fe3, 0x3a5, [0x308, 0x301]⟩, ⟨0x1fe4, 0x1fe4, 0x3a1, [0x313]⟩, ⟨0x1fe6, 0x1fe6, 0x3a5, [0x342]⟩,
    ⟨0x1fe7, 0x1fe7, 0x3a5, [0x308, 0x342]⟩, ⟨0x1ff2, 0x1ff2, 0x1ffa, [0x399]⟩, ⟨0x1ff3, 0x1ff3, 0x3a9, [0x399]⟩,
    ⟨0x1ff4, 0x1ff4, 0x38f, [0x399]⟩, ⟨0x1ff6, 0x1ff6, 0x3a9, [0x342]⟩, ⟨0x1ff7, 0x1ff7, 0x3a9, [0x342, 0x399]⟩,
    ⟨0x1ffc, 0x1ffc, 0x3a9, [0x399]⟩, ⟨0xfb00, 0xfb00, 0x46, [0x46]⟩, ⟨0xfb01, 0xfb01, 0x46, [0x49]⟩,
    ⟨0xfb02, 0xfb02, 0x46, [0x4c]⟩, ⟨0xfb03, 0xfb03, 0x46, [0x46, 0x49]⟩, ⟨0xfb04, 0xfb04, 0x46, [0x46, 0x4c]⟩,
    ⟨0xfb05, 0xfb05, 0x53, [0x54]⟩, ⟨0xfb06, 0xfb06, 0x53, [0x54]⟩, ⟨0xfb13, 0xfb13, 0x544, [0x546]⟩,
    ⟨0xfb14, 0xfb14, 0x544, [0x535]⟩, ⟨0xfb15, 0xfb15, 0x544, [0x53b]⟩, ⟨0xfb16, 0xfb16, 0x54e, [0x546]⟩,
    ⟨0xfb17, 0xfb17, 0x544, [0x53d]⟩]

/-- The upper case of a character. -/
def upperChar (c : Char) : JString :=
  if c.toNat < 128 then [Char.ofNat (upperPoint c.toNat)]
  else
    match expansions.find? fun e => e.first ≤ c.toNat ∧ c.toNat ≤ e.last with
    | some e => Char.ofNat (e.mapped + (c.toNat - e.first)) :: e.rest.map Char.ofNat
    | none => [Char.ofNat (upperPoint c.toNat)]

/-- `String.toUpperCase`, for a locale without rules of its own. -/
def toUpperCase (s : JString) : JString := s.flatMap upperChar

/-- The lower case of a character. -/
def lowerChar (c : Char) : Char := Char.ofNat (lowerPoint c.toNat)

/-- `String.toLowerCase`, for texts without `Σ` and `İ`, which have a rule of their own. Only texts are put in lower
case here whose upper case is `INBOX`. -/
def toLowerCase (s : JString) : JString := s.map lowerChar

theorem toUpperCase_of_forall {s : JString} (h : ∀ c ∈ s, c.toNat < 97) : toUpperCase s = s := by
  induction s with
  | nil => rfl
  | cons c s ih =>
    obtain ⟨hc, hs⟩ := List.forall_mem_cons.mp h
    have hupper : upperChar c = [c] := by
      rw [upperChar, if_pos (by omega), upperPoint, if_pos (by omega), if_neg (by omega), Char.ofNat_toNat]
    have hrest : s.flatMap upperChar = s := ih hs
    rw [toUpperCase, List.flatMap_cons, hupper, hrest, List.singleton_append]

/-- The upper case of a character is one letter or comes from the table. -/
theorem upperChar_cases (c : Char) :
    upperChar c = [Char.ofNat (upperPoint c.toNat)]
      ∨ ∃ e ∈ expansions, e.first ≤ c.toNat ∧ c.toNat ≤ e.last
          ∧ upperChar c = Char.ofNat (e.mapped + (c.toNat - e.first)) :: e.rest.map Char.ofNat := by
  unfold upperChar
  split
  · exact .inl rfl
  · split
    · next e he =>
      have hfound := List.find?_some he
      obtain ⟨hfirst, hlast⟩ := of_decide_eq_true hfound
      exact .inr ⟨e, List.mem_of_find?_eq_some he, hfirst, hlast, rfl⟩
    · exact .inl rfl

/-- An upper case of several letters has an `S`, an `F` or a letter behind US-ASCII. -/
theorem length_upperChar_le {c : Char} (h : ∀ d ∈ upperChar c, d.toNat < 128 ∧ d ≠ 'S' ∧ d ≠ 'F') :
    (upperChar c).length ≤ 1 := by
  have hrows : ∀ e ∈ expansions, (e.first = e.last ∧ (e.mapped = 0x53 ∨ e.mapped = 0x46))
      ∨ (128 ≤ e.mapped ∧ e.mapped + (e.last - e.first) < 0xd800) ∨ ∃ n ∈ e.rest, 128 ≤ n ∧ n < 0xd800 := by
    decide
  rcases upperChar_cases c with hone | ⟨e, he, hfirst, hlast, hseveral⟩
  · rw [hone, List.length_singleton]
  · rw [hseveral] at h
    rcases hrows e he with ⟨hsingle, hletter⟩ | ⟨hlo, hhi⟩ | ⟨n, hn, hlo, hhi⟩
    · -- `ß` and the ligatures
      have hmapped : e.mapped + (c.toNat - e.first) = e.mapped := by omega
      obtain ⟨-, hS, hF⟩ := h _ List.mem_cons_self
      rw [hmapped] at hS hF
      rcases hletter with heq | heq <;> rw [heq] at hS hF
      · exact absurd rfl hS
      · exact absurd rfl hF
    · have hlt := (h _ List.mem_cons_self).1
      rw [toNat_ofNat_of_lt (by omega)] at hlt
      omega
    · have hlt := (h _ (List.mem_cons_of_mem _ (List.mem_map_of_mem hn))).1
      rw [toNat_ofNat_of_lt hhi] at hlt
      omega

/-- Upper case makes a text longer only where it writes an `S`, an `F` or a letter behind US-ASCII. -/
theorem length_toUpperCase_le {s : JString} (h : ∀ c ∈ toUpperCase s, c.toNat < 128 ∧ c ≠ 'S' ∧ c ≠ 'F') :
    (toUpperCase s).length ≤ s.length := by
  induction s with
  | nil => exact Nat.le_refl 0
  | cons c s ih =>
    rw [toUpperCase, List.flatMap_cons, List.forall_mem_append] at h
    have hc := length_upperChar_le h.1
    have hs := ih h.2
    rw [toUpperCase, List.flatMap_cons, List.length_append, List.length_cons]
    rw [toUpperCase] at hs
    omega

/-- A text in lower case has no capital letter of US-ASCII. -/
theorem not_mem_toLowerCase {d : Char} (hd : 65 ≤ d.toNat ∧ d.toNat ≤ 90) (s : JString) : d ∉ toLowerCase s := by
  intro h
  obtain ⟨c, -, rfl⟩ := List.mem_map.mp h
  have hcapital := lowerPoint_notMem_capitals c.toNat
  by_cases hvalid : (lowerPoint c.toNat).isValidChar
  · rw [lowerChar, Char.ofNat, dif_pos hvalid] at hd
    exact hcapital hd
  · rw [lowerChar, Char.ofNat, dif_neg hvalid] at hd
    exact absurd hd (by decide)

end OrgLittle.Java
