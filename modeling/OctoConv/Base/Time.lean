/-!
# Time

Instants and durations are integers, in nanoseconds as in `time.Duration`; nothing here depends on
a width.
-/

namespace OctoConv

/-- `time.Second` -/
def second : Int := 1000000000

/-- `time.Minute` -/
def minute : Int := 60 * second

end OctoConv
