import DistinctCount.SketchUnion

namespace DistinctCount

open Text (Shown)

def Sketch.shown (s : Sketch Float) : Shown :=
  .record "HllSketch" [
    ("lg_config_k", .atom (toString s.precision.lg)),
    ("target_type", .atom s.width.label),
    ("mode", .atom s.mode.label),
    ("out_of_order", .atom (toString s.outOfOrder)),
    ("estimate", .atom (Text.ofFloat .marked s.estimate))]

def Snapshot.shown (s : Snapshot Float) : Shown :=
  .record "CompactHllSketch" [("sketch", s.sketch.shown)]

def SketchUnion.shown (u : SketchUnion Float) : Shown :=
  .record "HllUnion" [
    ("lg_max_k", .atom (toString u.ceiling.lg)),
    ("gadget", u.merged.shown)]

def Settings.shown (s : Settings) : Shown :=
  .record "HllSketchBuilder" [
    ("lg_config_k", .atom (toString s.lg)),
    ("hll_type", .atom s.width.label),
    ("seed", .atom (toString s.seed.toNat))]

end DistinctCount
