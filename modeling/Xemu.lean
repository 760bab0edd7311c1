import Xemu.Core.TailQueue
import Xemu.Lru.Basic
import Xemu.Lru.Invariant
import Xemu.Lru.Representation
import Xemu.Lru.Recency
import Xemu.Core.BitDeposit
import Xemu.Core.ByteCopy
import Xemu.Swizzle.Basic
import Xemu.Swizzle.Masks
import Xemu.Swizzle.Lossless
import Xemu.Pgraph.Draw
import Xemu.Pgraph.Vertex
import Xemu.Pgraph.Methods
import Xemu.Pfifo.Pusher
import Xemu.Pfifo.Commands
import Xemu.Pfifo.Squash
import Xemu.Pfifo.Delivery
import Xemu.Pgraph.Batching
import Xemu.Pgraph.Capture
import Xemu.Pgraph.Texture
import Xemu.Pgraph.TextureCache
import Xemu.Pgraph.SurfaceCache
import Xemu.Dsp.Alu
import Xemu.Dsp.Multiply
import Xemu.Dsp.Opcache
import Xemu.Vp.Samples
import Xemu.Dsp.Loop
import Xemu.Core.Bounded
import Xemu.Core.OnesComplement
import Xemu.Nvnet.Checksum
import Xemu.Vp.Workers
import Xemu.Nvnet.Frames
import Xemu.Nvnet.Builders
import Xemu.Nvnet.Handlers
import Xemu.Nvnet.Relay
import Xemu.Nvnet.Ring
import Xemu.Nvnet.Transmit
import Xemu.Core.Words
import Xemu.Dsp.Arith
import Xemu.Core.NonRestoring
import Xemu.Dsp.Divide
import Xemu.Dsp.Address
import Xemu.Dsp.Dma
import Xemu.Dsp.GpEp
import Xemu.Vp.Frame
import Xemu.Pfifo.Ramht
import Xemu.Core.Align
import Xemu.Pgraph.VkBuffer
import Xemu.Core.Grid
import Xemu.Pgraph.S3tc
import Xemu.Dsp.Compare
import Xemu.Core.BitReverse
import Xemu.Dsp.BitReversed
import Xemu.Dsp.Interrupt
import Xemu.Vp.Adpcm
import Xemu.Vp.AdpcmRead
import Xemu.Dsp.Repeat
import Xemu.Dsp.Norm
