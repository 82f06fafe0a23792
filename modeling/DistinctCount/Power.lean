/-! Powers of whole numbers are the built-in ones everywhere in this library, also in modules where
algebra brings the power of a monoid into scope. -/

namespace DistinctCount

-- A literal exponent is settled by a default, before any search.
attribute [scoped instance (high), default_instance (20000)] instPowNat

end DistinctCount
