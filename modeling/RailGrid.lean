import RailGrid.Datum.Vehicles
import RailGrid.World.App
import RailGrid.Proofs.Rail.Stored
import RailGrid.Proofs.TileMap.Mutators
import RailGrid.Proofs.Rail.Construction
import RailGrid.Proofs.Rail.RoundTrip
import RailGrid.Proofs.Tile.WellFormed
import RailGrid.Proofs.TileMap.Reachable
import RailGrid.Proofs.Rail.Refinement
import RailGrid.Proofs.TileMap.RailSites
import RailGrid.Proofs.Save.Restore
import RailGrid.Proofs.Save.Packing
import RailGrid.Proofs.Save.Column
import RailGrid.Proofs.Save.Extent
import RailGrid.Proofs.Save.Formats
import RailGrid.Proofs.World.Consistency
import RailGrid.Proofs.TileMap.Readers
import RailGrid.Proofs.TileMap.Refusals
import RailGrid.Proofs.Random.Permutation
import RailGrid.Proofs.Random.Requests
import RailGrid.Proofs.TileMap.FieldEdits
import RailGrid.Proofs.Rail.Items
import RailGrid.Proofs.TileMap.Locality
import RailGrid.Proofs.TileMap.Coordinates
import RailGrid.Proofs.TileMap.Walks
import RailGrid.Proofs.Random.Separation
import RailGrid.Proofs.World.Registration
import RailGrid.Proofs.World.Dimensions
import RailGrid.Proofs.Random.Recovery
import RailGrid.Proofs.Random.Mirroring
import RailGrid.Proofs.TileMap.Decoding
import RailGrid.Proofs.Text.Hex
import RailGrid.Proofs.Text.Pieces
import RailGrid.Proofs.Datum.Canonical
import RailGrid.Proofs.Random.Scaling
import RailGrid.Proofs.TileMap.Rebuilding
import RailGrid.Proofs.TileMap.Indexing
import RailGrid.Proofs.TileMap.Neighbors
import RailGrid.Proofs.Word.BitRanges
import RailGrid.Proofs.Random.Filling
import RailGrid.Proofs.TileMap.Signalling
import RailGrid.Proofs.World.Startup
