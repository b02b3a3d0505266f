import VideoPipeline.Image.Centre
import VideoPipeline.Image.Neighbourhood
import VideoPipeline.Pixel.BorderMask
import VideoPipeline.Top.Boundary
import VideoPipeline.Vga.Waveform
import VideoPipeline.Image.Arithmetic
import VideoPipeline.Image.Luma
import VideoPipeline.Format.Agreement
import VideoPipeline.Top.Raster
import VideoPipeline.Read.Release
import VideoPipeline.Pixel.LineDelay
import VideoPipeline.Image.Gaps
import VideoPipeline.Pixel.Coordinates
import VideoPipeline.Pattern.Generator
import VideoPipeline.Top.Channel
import VideoPipeline.Top.Persistence
import VideoPipeline.Top.Session
import VideoPipeline.Read.Bridge
import VideoPipeline.Sdram.Device
