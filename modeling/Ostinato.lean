import Ostinato.Audio.Render
import Ostinato.Main
import Ostinato.Source.Report
import Ostinato.Proofs.Machine.History
import Ostinato.Proofs.Machine.Timetable
import Ostinato.Proofs.Machine.Ceiling
import Ostinato.Proofs.Machine.Endless
import Ostinato.Proofs.Source.Jumps
import Ostinato.Proofs.Text.Cutting
import Ostinato.Proofs.Source.Decimal
import Ostinato.Proofs.Source.Written
import Ostinato.Proofs.Sorting
import Ostinato.Proofs.Source.Positions
import Ostinato.Proofs.Source.Diagnostics
import Ostinato.Proofs.Source.Coverage
import Ostinato.Proofs.Source.Concatenation
import Ostinato.Proofs.Source.Layout
import Ostinato.Proofs.Audio.Buffers
import Ostinato.Proofs.Audio.Playing
import Ostinato.Proofs.Audio.Extent
import Ostinato.Proofs.Audio.Layers
import Ostinato.Proofs.Audio.Isolation
import Ostinato.Proofs.Audio.WaveFormat
import Ostinato.Proofs.Audio.Limits
import Ostinato.Proofs.Audio.Desk
import Ostinato.Proofs.Audio.Mixing
import Ostinato.Proofs.Audio.Room
import Ostinato.Proofs.Machine.Inaudible
import Ostinato.Proofs.Machine.DryRun
import Ostinato.Proofs.Disk.Agreement
import Ostinato.Proofs.Machine.Loops
import Ostinato.Proofs.Source.Chords
import Ostinato.Proofs.Disk.Confinement
import Ostinato.Proofs.Numeric.Rounding
import Ostinato.Proofs.Numeric.Packing
import Ostinato.Proofs.Numeric.Arithmetic
import Ostinato.Proofs.Numeric.Bounds
import Ostinato.Proofs.Numeric.Order
import Ostinato.Proofs.Numeric.Series
import Ostinato.Proofs.Numeric.Ranges
import Ostinato.Proofs.Audio.Loudness
import Ostinato.Proofs.Audio.Headroom
import Ostinato.Proofs.Machine.Forward
import Ostinato.Proofs.Score.Order
import Ostinato.Proofs.Source.Faults
import Ostinato.Proofs.Numeric.Wholes
import Ostinato.Proofs.Audio.Conversion
import Ostinato.Proofs.Audio.Quantizing
import Ostinato.Proofs.Source.Numerals
import Ostinato.Proofs.Source.Reading
