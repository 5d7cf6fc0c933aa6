import BraceLang.Unicode.Run

/-!
# Small letters

The small form of a capital letter of any script. Where capitals stand side by side their small
forms do so at a fixed distance; else each capital is followed by its small form. The tables follow
Unicode 14.
-/

namespace BraceLang.Unicode

/-- Runs of capitals beyond ASCII with the distance to their small forms. -/
def smallFormRuns : List (Nat × Nat × Int) :=
  [(192, 214, 32), (216, 222, 32), (376, 376, -121), (385, 385, 210), (390, 390, 206),
   (393, 394, 205), (398, 398, 79), (399, 399, 202), (400, 400, 203), (403, 403, 205),
   (404, 404, 207), (406, 406, 211), (407, 407, 209), (412, 412, 211), (413, 413, 213),
   (415, 415, 214), (422, 422, 218), (425, 425, 218), (430, 430, 218), (433, 434, 217),
   (439, 439, 219), (452, 452, 2), (455, 455, 2), (458, 458, 2), (497, 497, 2), (502, 502, -97),
   (503, 503, -56), (544, 544, -130), (570, 570, 10795), (573, 573, -163), (574, 574, 10792),
   (579, 579, -195), (580, 580, 69), (581, 581, 71), (895, 895, 116), (902, 902, 38),
   (904, 906, 37), (908, 908, 64), (910, 911, 63), (913, 929, 32), (931, 939, 32), (975, 975, 8),
   (1012, 1012, -60), (1017, 1017, -7), (1021, 1023, -130), (1024, 1039, 80), (1040, 1071, 32),
   (1216, 1216, 15), (1329, 1366, 48), (4256, 4293, 7264), (4295, 4295, 7264), (4301, 4301, 7264),
   (5024, 5103, 38864), (5104, 5109, 8), (7312, 7354, -3008), (7357, 7359, -3008),
   (7838, 7838, -7615), (7944, 7951, -8), (7960, 7965, -8), (7976, 7983, -8), (7992, 7999, -8),
   (8008, 8013, -8), (8025, 8025, -8), (8027, 8027, -8), (8029, 8029, -8), (8031, 8031, -8),
   (8040, 8047, -8), (8072, 8079, -8), (8088, 8095, -8), (8104, 8111, -8), (8120, 8121, -8),
   (8122, 8123, -74), (8124, 8124, -9), (8136, 8139, -86), (8140, 8140, -9), (8152, 8153, -8),
   (8154, 8155, -100), (8168, 8169, -8), (8170, 8171, -112), (8172, 8172, -7), (8184, 8185, -128),
   (8186, 8187, -126), (8188, 8188, -9), (8486, 8486, -7517), (8490, 8490, -8383),
   (8491, 8491, -8262), (8498, 8498, 28), (8544, 8559, 16), (9398, 9423, 26), (11264, 11311, 48),
   (11362, 11362, -10743), (11363, 11363, -3814), (11364, 11364, -10727), (11373, 11373, -10780),
   (11374, 11374, -10749), (11375, 11375, -10783), (11376, 11376, -10782), (11390, 11391, -10815),
   (42877, 42877, -35332), (42893, 42893, -42280), (42922, 42922, -42308), (42923, 42923, -42319),
   (42924, 42924, -42315), (42925, 42925, -42305), (42926, 42926, -42308), (42928, 42928, -42258),
   (42929, 42929, -42282), (42930, 42930, -42261), (42931, 42931, 928), (42948, 42948, -48),
   (42949, 42949, -42307), (42950, 42950, -35384), (65313, 65338, 32), (66560, 66599, 40),
   (66736, 66771, 40), (66928, 66938, 39), (66940, 66954, 39), (66956, 66962, 39),
   (66964, 66965, 39), (68736, 68786, 64), (71840, 71871, 32), (93760, 93791, 32),
   (125184, 125217, 34)]

/-- Runs in which capitals and their small forms alternate. -/
def alternatingSmallFormRuns : List (Nat × Nat) :=
  [(256, 302), (306, 310), (313, 327), (330, 374), (377, 381), (386, 388), (391, 391), (395, 395),
   (401, 401), (408, 408), (416, 420), (423, 423), (428, 428), (431, 431), (435, 437), (440, 440),
   (444, 444), (453, 453), (456, 456), (459, 475), (478, 494), (498, 500), (504, 542), (546, 562),
   (571, 571), (577, 577), (582, 590), (880, 882), (886, 886), (984, 1006), (1015, 1015),
   (1018, 1018), (1120, 1152), (1162, 1214), (1217, 1229), (1232, 1326), (7680, 7828), (7840, 7934),
   (8579, 8579), (11360, 11360), (11367, 11371), (11378, 11378), (11381, 11381), (11392, 11490),
   (11499, 11501), (11506, 11506), (42560, 42604), (42624, 42650), (42786, 42798), (42802, 42862),
   (42873, 42875), (42878, 42886), (42891, 42891), (42896, 42898), (42902, 42920), (42932, 42946),
   (42951, 42953), (42960, 42960), (42966, 42968), (42997, 42997)]

/-- The small form of a letter; any other character as it is. -/
def smallForm (c : Char) : Char :=
  if c.toNat < 128 then c.toLower
  else if inAlternatingRuns alternatingSmallFormRuns c.toNat then Char.ofNat (c.toNat + 1)
  else
    match smallFormRuns.find? fun (first, last, _) => first ≤ c.toNat && c.toNat ≤ last with
    | some (_, _, distance) => Char.ofNat (c.toNat + distance).toNat
    | none => c

end BraceLang.Unicode
